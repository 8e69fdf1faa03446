/-
  The regular expressions of `synthesizer.py` and `ipc_mapper.py` under the matching
  discipline of Python's `re`: a backtracking matcher that takes the leftmost start at
  which the pattern matches, and there the first match in priority order.

  * `Re.run fl r p`: the end points of the matches of `r` from `p`, in the order the
    backtracking matcher tries them (a greedy repetition tries one more iteration
    first, a lazy one stops first; an iteration that consumes nothing ends it);
  * `Pattern`: a pattern with one capturing group, `pre (grp) post`; `Pattern.search`
    is `re.search`, `Pattern.findall` is `re.findall` and `Pattern.sub` is `re.sub`;
  * `run_consumes`: a match consumes a prefix of the subject made of characters that
    the pattern's literals and classes accept (`group_uses` for the group).
-/
import MachSynth.Python

namespace MachSynth

/-! ## Syntax -/

/-- The flags a pattern is compiled with: `re.MULTILINE`, `re.DOTALL`. -/
structure Flags where
  multiline : Bool
  dotall : Bool

/-- The characters of the class `[,;()]`. -/
def isPunct (c : Char) : Bool := c == ',' || c == ';' || c == '(' || c == ')'

/-- The character classes of the patterns: `\w`, `\s`, `.`, `[^)]` and `[,;()]`. -/
inductive Cls where
  | word | space | dot | notRParen | punct

/-- Whether a character belongs to a class; `.` takes `\n` only under `re.DOTALL`. -/
def Cls.test (fl : Flags) : Cls → Char → Bool
  | .word, c => isWordChar c
  | .space, c => isSpaceChar c
  | .dot, c => fl.dotall || c != '\n'
  | .notRParen, c => c != ')'
  | .punct, c => isPunct c

/-- Regular expressions: a literal character, a class, `^`, `$`, concatenation,
    `r*` (greedy) or `r*?` (lazy), `r?`, and the empty pattern. -/
inductive Re where
  | chr (c : Char)
  | cls (k : Cls)
  | bol
  | eol
  | seq (r s : Re)
  | star (greedy : Bool) (r : Re)
  | opt (r : Re)
  | eps

namespace Re

/-- The literal text `s` (what `re.escape(s)` matches). -/
def lit (s : String) : Re := s.data.foldr (fun c r => .seq (.chr c) r) .eps

/-- `r+` -/
def plus (r : Re) : Re := .seq r (.star true r)

/-- `r₁ r₂ … rₙ` -/
def seqs : List Re → Re
  | [] => .eps
  | [r] => r
  | r :: rs => .seq r (seqs rs)

end Re

/-! ## Matching -/

/-- A point of the subject: the character before it, if any, and the text after it. -/
structure Pos where
  prev : Option Char
  rest : List Char

/-- Consume one character that satisfies `ok`. -/
def Pos.consume (p : Pos) (ok : Char → Bool) : List Pos :=
  match p.rest with
  | c :: cs => if ok c then [⟨some c, cs⟩] else []
  | [] => []

/-- `^`: the start of the subject, or under `re.MULTILINE` just after a newline. -/
def Pos.atBol (fl : Flags) (p : Pos) : Bool :=
  p.prev == none || (fl.multiline && p.prev == some '\n')

/-- `$`: the end of the subject or just before a final newline, or under
    `re.MULTILINE` just before any newline. -/
def Pos.atEol (fl : Flags) (p : Pos) : Bool :=
  p.rest == [] || p.rest == ['\n'] || (fl.multiline && p.rest.head? == some '\n')

/-- The repetition `r*` from `p`, where `f` gives the ends of one iteration of `r`, with
    `n` iterations at most.  A greedy repetition lists the longer runs first. -/
def starRun (greedy : Bool) (f : Pos → List Pos) : Nat → Pos → List Pos
  | 0, p => [p]
  | n + 1, p =>
    let more := ((f p).filter fun q => q.rest.length < p.rest.length).flatMap (starRun greedy f n)
    if greedy then more ++ [p] else p :: more

/-- The ends of the matches of `r` from `p`, in the order the backtracking matcher tries
    them.  Every iteration of a repetition consumes a character, so `p.rest.length + 1`
    iterations are never the limit. -/
def Re.run (fl : Flags) : Re → Pos → List Pos
  | .chr c, p => p.consume (· == c)
  | .cls k, p => p.consume (k.test fl)
  | .bol, p => if p.atBol fl then [p] else []
  | .eol, p => if p.atEol fl then [p] else []
  | .seq r s, p => (r.run fl p).flatMap (s.run fl)
  | .star g r, p => starRun g (r.run fl) (p.rest.length + 1) p
  | .opt r, p => r.run fl p ++ [p]
  | .eps, p => [p]

/-- A compiled pattern with one capturing group: `pre (grp) post`. -/
structure Pattern where
  flags : Flags
  pre : Re
  grp : Re
  post : Re

/-- A match: where it starts, where its group starts and ends, and where it ends. -/
structure Match where
  start : Pos
  gstart : Pos
  gend : Pos
  stop : Pos

/-- The text between two points of one subject. -/
def span (a b : Pos) : String := ⟨a.rest.take (a.rest.length - b.rest.length)⟩

/-- `m.group(1)` -/
def Match.group (m : Match) : String := span m.gstart m.gend

namespace Pattern

/-- The matches starting at `p`, in priority order. -/
def matchesAt (P : Pattern) (p : Pos) : List Match :=
  (P.pre.run P.flags p).flatMap fun a => (P.grp.run P.flags a).flatMap fun b =>
    (P.post.run P.flags b).map fun e => ⟨p, a, b, e⟩

/-- The leftmost match at or after the point `⟨prev, cs⟩`. -/
def searchFrom (P : Pattern) (prev : Option Char) : List Char → Option Match
  | [] => (P.matchesAt ⟨prev, []⟩).head?
  | c :: cs => (P.matchesAt ⟨prev, c :: cs⟩).head?.or (P.searchFrom (some c) cs)

/-- `re.search(P, s)` -/
def search (P : Pattern) (s : String) : Option Match := P.searchFrom none s.data

/-- The groups of the successive non-overlapping matches from `⟨prev, cs⟩`; after an
    empty match the search resumes one character later. -/
def findallFrom (P : Pattern) : Nat → Option Char → List Char → List String
  | 0, _, _ => []
  | n + 1, prev, cs =>
    match P.searchFrom prev cs with
    | none => []
    | some m =>
      m.group :: if m.stop.rest.length < m.start.rest.length then
        P.findallFrom n m.stop.prev m.stop.rest
      else match m.stop.rest with
        | [] => []
        | c :: cs' => P.findallFrom n (some c) cs'

/-- `re.findall(P, s)` for a pattern with one group: the texts of the group. -/
def findall (P : Pattern) (s : String) : List String := P.findallFrom (s.data.length + 1) none s.data

/-- The successive non-overlapping matches from `⟨prev, cs⟩`, found as `findallFrom`
    finds them. -/
def finditerFrom (P : Pattern) : Nat → Option Char → List Char → List Match
  | 0, _, _ => []
  | n + 1, prev, cs =>
    match P.searchFrom prev cs with
    | none => []
    | some m =>
      m :: if m.stop.rest.length < m.start.rest.length then
        P.finditerFrom n m.stop.prev m.stop.rest
      else match m.stop.rest with
        | [] => []
        | c :: cs' => P.finditerFrom n (some c) cs'

/-- `re.finditer(P, s)`: the matches whose groups `re.findall` returns. -/
def finditer (P : Pattern) (s : String) : List Match := P.finditerFrom (s.data.length + 1) none s.data

/-- The text from `⟨prev, cs⟩` on with each successive non-overlapping match replaced by
    `repl` of it; after an empty match one character is copied and the search resumes
    after it. -/
def subFrom (P : Pattern) (repl : Match → List Char) : Nat → Option Char → List Char → List Char
  | 0, _, cs => cs
  | n + 1, prev, cs =>
    match P.searchFrom prev cs with
    | none => cs
    | some m =>
      (span ⟨prev, cs⟩ m.start).data ++ repl m ++
        if m.stop.rest.length < m.start.rest.length then P.subFrom repl n m.stop.prev m.stop.rest
        else match m.stop.rest with
          | [] => []
          | c :: cs' => c :: P.subFrom repl n (some c) cs'

/-- `re.sub(P, repl, s)`, where `repl` gives the replacement of a match. -/
def sub (P : Pattern) (repl : Match → String) (s : String) : String :=
  ⟨P.subFrom (fun m => (repl m).data) (s.data.length + 1) none s.data⟩

end Pattern

/-! ## What a match consumes -/

/-- The characters that a literal or a class of `r` accepts. -/
def Re.Uses (fl : Flags) : Re → Char → Prop
  | .chr c, d => d = c
  | .cls k, d => k.test fl d
  | .bol, _ | .eol, _ | .eps, _ => False
  | .seq r s, d => r.Uses fl d ∨ s.Uses fl d
  | .star _ r, d | .opt r, d => r.Uses fl d

/-- `q` is reached from `p` by consuming text whose characters satisfy `P`. -/
def Pos.Reaches (P : Char → Prop) (p q : Pos) : Prop :=
  ∃ w, p.rest = w ++ q.rest ∧ ∀ c ∈ w, P c

theorem Pos.Reaches.refl (P : Char → Prop) (p : Pos) : p.Reaches P p := ⟨[], rfl, by simp⟩

theorem Pos.Reaches.trans {P : Char → Prop} {p q r : Pos} (h₁ : p.Reaches P q)
    (h₂ : q.Reaches P r) : p.Reaches P r := by
  obtain ⟨w₁, e₁, h₁⟩ := h₁
  obtain ⟨w₂, e₂, h₂⟩ := h₂
  exact ⟨w₁ ++ w₂, by rw [e₁, e₂, List.append_assoc], by simp only [List.mem_append]; rintro c (h | h) <;> simp_all⟩

theorem Pos.Reaches.mono {P Q : Char → Prop} {p q : Pos} (h : p.Reaches P q)
    (hPQ : ∀ c, P c → Q c) : p.Reaches Q q := by
  obtain ⟨w, e, h⟩ := h
  exact ⟨w, e, fun c hc => hPQ c (h c hc)⟩

theorem Pos.Reaches.length_le {P : Char → Prop} {p q : Pos} (h : p.Reaches P q) :
    q.rest.length ≤ p.rest.length := by
  obtain ⟨w, e, -⟩ := h
  simp [e]

theorem mem_consume {p q : Pos} {ok : Char → Bool} (h : q ∈ p.consume ok) :
    p.Reaches (ok · = true) q := by
  unfold Pos.consume at h
  split at h
  · next c cs hp =>
    split_ifs at h with hc
    · simp only [List.mem_singleton] at h
      subst h
      exact ⟨[c], by simp [hp], by simpa using hc⟩
    · simp at h
  · simp at h

theorem mem_starRun {g : Bool} {f : Pos → List Pos} {P : Char → Prop}
    (hf : ∀ p q, q ∈ f p → p.Reaches P q) :
    ∀ n p q, q ∈ starRun g f n p → p.Reaches P q
  | 0, p, q, h => by simp only [starRun, List.mem_singleton] at h; subst h; exact .refl P _
  | n + 1, p, q, h => by
    have hmore : q ∈ ((f p).filter fun q => q.rest.length < p.rest.length).flatMap
        (starRun g f n) → p.Reaches P q := by
      simp only [List.mem_flatMap, List.mem_filter]
      rintro ⟨a, ⟨ha, -⟩, hq⟩
      exact (hf p a ha).trans (mem_starRun hf n a q hq)
    simp only [starRun] at h
    split_ifs at h
    · rcases List.mem_append.1 h with h | h
      · exact hmore h
      · simp only [List.mem_singleton] at h; subst h; exact .refl P _
    · rcases List.mem_cons.1 h with h | h
      · subst h; exact .refl P _
      · exact hmore h

/-- **A match consumes what the pattern accepts.** -/
theorem run_consumes (fl : Flags) :
    ∀ (r : Re) {p q : Pos}, q ∈ r.run fl p → p.Reaches (r.Uses fl) q
  | .chr c, p, q, h => (mem_consume h).mono fun d hd => by simpa [Re.Uses] using hd
  | .cls k, p, q, h => mem_consume h
  | .bol, p, q, h | .eol, p, q, h => by
    simp only [Re.run] at h
    split_ifs at h
    · simp only [List.mem_singleton] at h; subst h; exact .refl _ _
    · simp at h
  | .eps, p, q, h => by simp only [Re.run, List.mem_singleton] at h; subst h; exact .refl _ _
  | .seq r s, p, q, h => by
    simp only [Re.run, List.mem_flatMap] at h
    obtain ⟨a, ha, hq⟩ := h
    exact ((run_consumes fl r ha).mono fun _ => Or.inl).trans
      ((run_consumes fl s hq).mono fun _ => Or.inr)
  | .star g r, p, q, h => mem_starRun (fun _ _ => run_consumes fl r) _ p q h
  | .opt r, p, q, h => by
    simp only [Re.run, List.mem_append, List.mem_singleton] at h
    rcases h with h | h
    · exact run_consumes fl r h
    · subst h; exact .refl _ _

theorem span_of_reaches {P : Char → Prop} {a b : Pos} (h : a.Reaches P b) :
    ∀ c ∈ (span a b).data, P c := by
  obtain ⟨w, e, hw⟩ := h
  simpa [span, e] using hw

theorem group_uses {P : Pattern} {p : Pos} {m : Match} (h : m ∈ P.matchesAt p) :
    ∀ c ∈ m.group.data, P.grp.Uses P.flags c := by
  simp only [Pattern.matchesAt, List.mem_flatMap, List.mem_map] at h
  obtain ⟨a, -, b, hb, e, -, rfl⟩ := h
  exact span_of_reaches (run_consumes _ _ hb)

end MachSynth
