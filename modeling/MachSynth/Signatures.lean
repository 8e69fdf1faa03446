/-
  `IPCMapper.clean_signature` and the extraction loop of `run_analysis` (ipc_mapper.py):
  how the mapper fills `self.interfaces`.

  * `cleanSignature`: the lines of a `grep` output joined, each run of whitespace made
    one space (`re.sub(r'\s+', ' ', sig)`), the whitespace around `,`, `;`, `(` and `)`
    removed (`re.sub(r'\s*([,;()])\s*', r'\1', sig)`), cut to 200 characters;
  * `squeeze` and `tighten`: what the two substitutions compute, as list functions;
    `spaceRun_subFrom` and `punctSpaces_subFrom` prove that the two `re.sub` calls
    compute them;
  * `cleanSignature_normalized`: a signature is nonempty, at most 200 characters long,
    and `Normalized`: single spaces, none next to another space or to `,;()`;
  * `extractInterfaces`: the loop of `run_analysis` that calls
    `extract_function_signatures` for each system, with `grep` a parameter;
  * `extractInterfaces_spec`: the loop never raises, and afterwards each registered
    system has an interface whose signatures are the cleaned outputs of `grep`, one
    per IPC function that has one, in `ipc_functions` order;
  * `extractInterfaces_score`: after the loop, the score `run_analysis` prints for two
    registered systems is the Jaccard similarity of the IPC functions found in each;
  * `extractInterfaces_compare`: after the loop, the rows `compare_interfaces` makes and
    the labels of `generate_synthesis_plan` follow from what was found at each path;
  * `buildCallGraph`: `build_call_graph`, with `cscope` a parameter whose output can
    fail to decode;
    `buildCallGraph_edges`: every edge goes from a named caller into one of the four IPC
    functions, never from a function to itself, and no function gets more than ten
    callers.
-/
import MachSynth.Matching
import MachSynth.Synthesizer
import MachSynth.IpcMapper

namespace MachSynth

/-! ## `clean_signature` -/

/-- `r'\s+'`; the whole match stands as the group, which the replacement `' '` does not
    read. -/
def spaceRun : Pattern := ⟨noFlags, .eps, Re.plus Re.space, .eps⟩

/-- `r'\s*([,;()])\s*'` -/
def punctSpaces : Pattern := ⟨noFlags, .star true Re.space, .cls .punct, .star true Re.space⟩

/-- `line.split(':', 1)[1]`: what follows the first `':'` of a line. -/
def afterColon (line : String) : String := ⟨(line.data.dropWhile (· != ':')).drop 1⟩

/-- What `clean_signature` keeps of one line: what follows the first `':'` of a line
    that has one, else the line unless it is blank or starts with `--`; stripped. -/
def cleanLine (line : String) : Option String :=
  if isIn ":" line then some (strip (afterColon line))
  else if strip line ≠ "" ∧ startsWith "--" line = false then some (strip line)
  else none

/-- `IPCMapper.clean_signature(raw_sig)` -/
def cleanSignature (rawSig : String) : Option String :=
  let cleaned := (rawSig.split (· = '\n')).filterMap cleanLine
  let sig := join " " cleaned
  let sig := spaceRun.sub (fun _ => " ") sig
  let sig := punctSpaces.sub Match.group sig
  if sig = "" then none else some ⟨sig.data.take 200⟩

/-! ## What the substitutions compute -/

/-- Each run of whitespace as one space. -/
def squeeze : List Char → List Char
  | [] => []
  | c :: cs =>
    if isSpaceChar c then
      if cs.head?.any isSpaceChar then squeeze cs else ' ' :: squeeze cs
    else c :: squeeze cs

/-- Without the runs of whitespace that stand before a character of `[,;()]`. -/
def dropBeforePunct : List Char → List Char
  | [] => []
  | c :: cs =>
    let r := dropBeforePunct cs
    if isSpaceChar c && r.head?.any isPunct then r else c :: r

/-- Without the runs of whitespace that stand after a character of `[,;()]`; `after`
    says that the text follows one. -/
def dropAfterPunct : Bool → List Char → List Char
  | _, [] => []
  | after, c :: cs =>
    if after && isSpaceChar c then dropAfterPunct true cs else c :: dropAfterPunct (isPunct c) cs

/-- Without the whitespace around the characters of `[,;()]`. -/
def tighten (cs : List Char) : List Char := dropAfterPunct false (dropBeforePunct cs)

theorem isPunct_of_isSpaceChar {c : Char} (h : isSpaceChar c = true) : isPunct c = false := by
  cases hp : isPunct c
  · rfl
  · simp only [isPunct, Bool.or_eq_true, beq_iff_eq] at hp
    rcases hp with ((rfl | rfl) | rfl) | rfl <;> revert h <;> decide

theorem isSpaceChar_space : isSpaceChar ' ' = true := rfl

theorem isSpaceChar_of_isPunct {c : Char} (h : isPunct c = true) : isSpaceChar c = false := by
  cases hs : isSpaceChar c
  · rfl
  · simp [isPunct_of_isSpaceChar hs] at h

theorem head?_dropWhile_any (p : Char → Bool) :
    ∀ l : List Char, (l.dropWhile p).head?.any p = false
  | [] => rfl
  | c :: cs => by
    by_cases hc : p c <;> simp [List.dropWhile_cons, hc, head?_dropWhile_any p cs]

theorem squeeze_space {c : Char} (hc : isSpaceChar c = true) :
    ∀ cs, squeeze (c :: cs) = ' ' :: squeeze (cs.dropWhile isSpaceChar)
  | [] => by simp [squeeze, hc]
  | d :: ds => by
    by_cases hd : isSpaceChar d
    · rw [squeeze, if_pos hc, if_pos (by simp [hd]), squeeze_space hd ds, List.dropWhile_cons_of_pos hd]
    · simp [squeeze, hc, hd, List.dropWhile_cons_of_neg]

/-- Whether the text after spaces goes on with a character of `[,;()]` is what
    `dropBeforePunct` keeps at its head. -/
theorem dropBeforePunct_head : ∀ l : List Char,
    (dropBeforePunct l).head?.any isPunct = (l.dropWhile isSpaceChar).head?.any isPunct
  | [] => rfl
  | c :: cs => by
    have ih := dropBeforePunct_head cs
    by_cases hc : isSpaceChar c
    · by_cases hp : (dropBeforePunct cs).head?.any isPunct
      · simp [dropBeforePunct, hc, hp, ← ih]
      · simp [dropBeforePunct, hc, hp, ← ih, isPunct_of_isSpaceChar hc]
    · simp [dropBeforePunct, hc, List.dropWhile_cons_of_neg]

/-- A run of spaces before a character of `[,;()]` goes. -/
theorem dropBeforePunct_spaces_punct {d : Char} {r : List Char} (hd : isPunct d = true) :
    ∀ sp : List Char, (∀ c ∈ sp, isSpaceChar c = true) → dropBeforePunct (sp ++ d :: r) = d :: dropBeforePunct r
  | [], _ => by simp [dropBeforePunct, isSpaceChar_of_isPunct hd]
  | s :: sp, h => by
    have hs := h s (List.mem_cons_self _ _)
    have hrest := @dropBeforePunct_spaces_punct d r hd sp fun c hc => h c (List.mem_cons_of_mem _ hc)
    simp [dropBeforePunct, hs, hrest, hd]

/-- After a character of `[,;()]`, what remains of the text is the tightened text from
    its first non-space on. -/
theorem dropAfterPunct_dropBeforePunct :
    ∀ r : List Char, dropAfterPunct true (dropBeforePunct r) = tighten (r.dropWhile isSpaceChar)
  | [] => rfl
  | e :: es => by
    by_cases he : isSpaceChar e
    · rw [List.dropWhile_cons_of_pos he, ← dropAfterPunct_dropBeforePunct es]
      by_cases hp : (dropBeforePunct es).head?.any isPunct <;> simp [dropBeforePunct, he, hp, dropAfterPunct]
    · simp [tighten, dropBeforePunct, dropAfterPunct, he, List.dropWhile_cons_of_neg]

/-- A character of `[,;()]` after spaces, and the spaces after it, shrink to it. -/
theorem tighten_punct {sp r : List Char} {d : Char} (hsp : ∀ c ∈ sp, isSpaceChar c = true)
    (hd : isPunct d = true) : tighten (sp ++ d :: r) = d :: tighten (r.dropWhile isSpaceChar) := by
  rw [tighten, dropBeforePunct_spaces_punct hd sp hsp, dropAfterPunct, ← dropAfterPunct_dropBeforePunct]
  simp [hd, isPunct_of_isSpaceChar]

/-- A character that no character of `[,;()]` follows after spaces stays. -/
theorem tighten_cons {c : Char} {cs : List Char}
    (h : ((c :: cs).dropWhile isSpaceChar).head?.any isPunct = false) : tighten (c :: cs) = c :: tighten cs := by
  by_cases hc : isSpaceChar c
  · rw [List.dropWhile_cons_of_pos hc, ← dropBeforePunct_head] at h
    simp [tighten, dropBeforePunct, dropAfterPunct, hc, h, isPunct_of_isSpaceChar hc]
  · rw [List.dropWhile_cons_of_neg (by simpa using hc)] at h
    simp only [Option.any, List.head?_cons] at h
    simp [tighten, dropBeforePunct, dropAfterPunct, hc, h]

/-! ## The two substitutions compute them -/

theorem test_space : Cls.test noFlags .space = isSpaceChar := rfl

theorem test_punct : Cls.test noFlags .punct = isPunct := rfl

theorem spaceRun_matchesAt_nil (prev : Option Char) : spaceRun.matchesAt ⟨prev, []⟩ = [] := rfl

theorem spaceRun_matchesAt_not_space {prev : Option Char} {c : Char} {cs : List Char}
    (hc : isSpaceChar c = false) : spaceRun.matchesAt ⟨prev, c :: cs⟩ = [] := by
  simp [Pattern.matchesAt, spaceRun, Re.plus, Re.space, Re.run, Pos.consume, Cls.test, hc]

/-- At whitespace, `\s+` takes the whole run. -/
theorem spaceRun_matchesAt_space {prev : Option Char} {c : Char} {cs : List Char}
    (hc : isSpaceChar c = true) :
    (spaceRun.matchesAt ⟨prev, c :: cs⟩).head? = some ⟨⟨prev, c :: cs⟩, ⟨prev, c :: cs⟩,
      skipWhile isSpaceChar (some c) cs, skipWhile isSpaceChar (some c) cs⟩ := by
  obtain ⟨qs, hq, -⟩ := @starRun_cls noFlags .space (cs.length + 1) (some c) cs (Nat.lt_succ_self _)
  have hf : Pos.consume ⟨prev, c :: cs⟩ (Cls.test noFlags .space) = [⟨some c, cs⟩] := by
    simp [Pos.consume, Cls.test, hc]
  simp [Pattern.matchesAt, spaceRun, Re.plus, Re.space, Re.run, hf, hq]
  rfl

/-- **`re.sub(r'\s+', ' ', s)` squeezes**: it makes each run of whitespace one space. -/
theorem spaceRun_subFrom : ∀ (cs : List Char) {n : Nat} {prev : Option Char}, cs.length < n →
    spaceRun.subFrom (fun _ => [' ']) n prev cs = squeeze cs
  | [], _, _, _ => subFrom_nil (spaceRun_matchesAt_nil _)
  | c :: cs, n, prev, h => by
    have hlen : (cs.dropWhile isSpaceChar).length ≤ cs.length := (List.dropWhile_suffix _).length_le
    by_cases hc : isSpaceChar c
    · obtain ⟨n, rfl⟩ : ∃ k, n = k + 1 := ⟨n - 1, by simp at h; omega⟩
      have hrest := skipWhile_rest isSpaceChar (some c) cs
      rw [subFrom_here (spaceRun_matchesAt_space hc) (by simp [hrest]; omega), squeeze_space hc, hrest,
        spaceRun_subFrom (cs.dropWhile isSpaceChar) (by simp at h; omega)]
      rfl
    · rw [subFrom_skip (spaceRun_matchesAt_not_space (by simpa using hc)),
        spaceRun_subFrom cs (by simp at h; omega)]
      simp [squeeze, hc]
termination_by cs => cs.length

theorem punctSpaces_matchesAt_head {prev : Option Char} {cs r : List Char} {d : Char}
    (hd : (skipWhile isSpaceChar prev cs).rest = d :: r) (hp : isPunct d = true) :
    (punctSpaces.matchesAt ⟨prev, cs⟩).head? = some ⟨⟨prev, cs⟩, skipWhile isSpaceChar prev cs, ⟨some d, r⟩,
      skipWhile isSpaceChar (some d) r⟩ := by
  obtain ⟨qs, hq, -⟩ := @starRun_cls noFlags .space (cs.length + 1) prev cs (Nat.lt_succ_self _)
  obtain ⟨qs', hq', -⟩ := @starRun_cls noFlags .space (r.length + 1) (some d) r (Nat.lt_succ_self _)
  have hf : Pos.consume (skipWhile isSpaceChar prev cs) isPunct = [⟨some d, r⟩] := by
    simp [Pos.consume, hd, hp]
  simp only [Pattern.matchesAt, punctSpaces, Re.space, Re.run]
  rw [test_space] at hq hq' ⊢
  rw [test_punct]
  simp [hq, hf, hq']

theorem consume_punct_nil {q : Pos} (h : q.rest.head?.any isPunct = false) : q.consume isPunct = [] := by
  obtain ⟨_, _ | ⟨e, es⟩⟩ := q <;> simp_all [Pos.consume]

theorem any_punct_of_any_space {o : Option Char} (h : o.any isSpaceChar = true) : o.any isPunct = false := by
  cases o <;> simp_all [isPunct_of_isSpaceChar]

theorem punctSpaces_matchesAt_nil {prev : Option Char} {cs : List Char}
    (h : (skipWhile isSpaceChar prev cs).rest.head?.any isPunct = false) :
    punctSpaces.matchesAt ⟨prev, cs⟩ = [] := by
  obtain ⟨qs, hq, hqs⟩ := @starRun_cls noFlags .space (cs.length + 1) prev cs (Nat.lt_succ_self _)
  simp only [Pattern.matchesAt, punctSpaces, Re.space, Re.run]
  rw [test_space] at hq hqs ⊢
  rw [test_punct, hq, List.flatMap_cons, consume_punct_nil h, List.flatMap_nil, List.nil_append,
    List.flatMap_eq_nil_iff]
  intro q hq
  rw [consume_punct_nil (any_punct_of_any_space (hqs q hq)), List.flatMap_nil]

/-- **`re.sub(r'\s*([,;()])\s*', r'\1', s)` tightens**: it removes the whitespace around
    each character of `[,;()]`. -/
theorem punctSpaces_subFrom : ∀ (cs : List Char) {n : Nat} {prev : Option Char}, cs.length < n →
    punctSpaces.subFrom (fun m => m.group.data) n prev cs = tighten cs
  | cs, n, prev, h => by
    have hrest := skipWhile_rest isSpaceChar prev cs
    cases hm : (skipWhile isSpaceChar prev cs).rest.head?.any isPunct
    · cases cs with
      | nil => exact subFrom_nil (punctSpaces_matchesAt_nil hm)
      | cons c cs =>
        rw [subFrom_skip (punctSpaces_matchesAt_nil hm), punctSpaces_subFrom cs (by simp at h; omega),
          tighten_cons (by rwa [hrest] at hm)]
    · obtain ⟨d, r, hd, hp⟩ : ∃ d r, (skipWhile isSpaceChar prev cs).rest = d :: r ∧ isPunct d = true := by
        revert hm; cases (skipWhile isSpaceChar prev cs).rest <;> simp
      obtain ⟨n, rfl⟩ : ∃ k, n = k + 1 := ⟨n - 1, by omega⟩
      have hcs : cs = cs.takeWhile isSpaceChar ++ d :: r := by
        rw [← hd, hrest, List.takeWhile_append_dropWhile]
      have hr : (r.dropWhile isSpaceChar).length < cs.length := by
        have h₁ := congrArg List.length hcs
        have h₂ : (r.dropWhile isSpaceChar).length ≤ r.length := (List.dropWhile_suffix _).length_le
        simp at h₁; omega
      have ht : tighten cs = d :: tighten (r.dropWhile isSpaceChar) := by
        rw [hcs]; exact tighten_punct (fun c hc => List.mem_takeWhile_imp hc) hp
      rw [subFrom_here (punctSpaces_matchesAt_head hd hp) (by simpa [skipWhile_rest] using hr), ht,
        skipWhile_rest, punctSpaces_subFrom _ (by omega)]
      simp [Match.group, span, hd]
termination_by cs => cs.length

theorem spaceRun_sub (s : String) : (spaceRun.sub (fun _ => " ") s).data = squeeze s.data :=
  spaceRun_subFrom _ (Nat.lt_succ_self _)

theorem punctSpaces_sub (s : String) : (punctSpaces.sub Match.group s).data = tighten s.data :=
  punctSpaces_subFrom _ (Nat.lt_succ_self _)

example : (punctSpaces.sub Match.group (spaceRun.sub (fun _ => " ") "int\t f ( a ,\n b )")).data =
    "int f(a,b)".data := by decide

/-! ## The normal form -/

/-- Two neighbouring characters of a normalised signature: not two whitespace
    characters, and no whitespace next to a character of `[,;()]`. -/
def Tight (a b : Char) : Prop :=
  ¬(isSpaceChar a ∧ isSpaceChar b) ∧ ¬(isSpaceChar a ∧ isPunct b) ∧ ¬(isPunct a ∧ isSpaceChar b)

instance : DecidableRel Tight := fun _ _ => inferInstanceAs (Decidable (¬_ ∧ ¬_ ∧ ¬_))

/-- A normalised signature: its whitespace is single spaces, none next to `,`, `;`, `(`
    or `)`. -/
def Normalized (s : List Char) : Prop := (∀ c ∈ s, isSpaceChar c = true → c = ' ') ∧ s.Chain' Tight

instance : DecidablePred Normalized := fun _ => inferInstanceAs (Decidable (_ ∧ _))

theorem Normalized.take {s : List Char} (h : Normalized s) (n : Nat) : Normalized (s.take n) :=
  ⟨fun c hc => h.1 c (List.mem_of_mem_take hc), h.2.take n⟩

theorem squeeze_head_space : ∀ l : List Char, (squeeze l).head?.any isSpaceChar = l.head?.any isSpaceChar
  | [] => rfl
  | c :: cs => by
    by_cases hc : isSpaceChar c
    · by_cases hs : cs.head?.any isSpaceChar
      · simp [squeeze, hc, hs, squeeze_head_space cs]
      · simp [squeeze, hc, hs, isSpaceChar_space]
    · simp [squeeze, hc]

theorem squeeze_spaces : ∀ l : List Char, ∀ c ∈ squeeze l, isSpaceChar c = true → c = ' '
  | [] => by simp [squeeze]
  | c :: cs => by
    intro d hd hs
    unfold squeeze at hd
    split_ifs at hd with hc
    · exact squeeze_spaces cs d hd hs
    · rcases List.mem_cons.1 hd with rfl | hd
      · rfl
      · exact squeeze_spaces cs d hd hs
    · rcases List.mem_cons.1 hd with rfl | hd
      · exact absurd hs hc
      · exact squeeze_spaces cs d hd hs

theorem squeeze_chain : ∀ l : List Char, (squeeze l).Chain' fun a b => ¬(isSpaceChar a ∧ isSpaceChar b)
  | [] => List.chain'_nil
  | c :: cs => by
    have ih := squeeze_chain cs
    by_cases hc : isSpaceChar c
    · by_cases hs : cs.head?.any isSpaceChar
      · simpa [squeeze, hc, hs] using ih
      · have hh := squeeze_head_space cs
        simp only [squeeze, hc, hs, if_true, if_false]
        refine List.chain'_cons'.2 ⟨fun y hy => ?_, ih⟩
        rw [hy] at hh
        simp_all
    · simp only [squeeze, hc, if_false]
      exact List.chain'_cons'.2 ⟨fun y _ => by simp [hc], ih⟩

theorem dropBeforePunct_sublist : ∀ l : List Char, (dropBeforePunct l).Sublist l
  | [] => .slnil
  | c :: cs => by
    simp only [dropBeforePunct]
    split_ifs
    · exact (dropBeforePunct_sublist cs).cons c
    · exact (dropBeforePunct_sublist cs).cons₂ c

theorem dropAfterPunct_sublist : ∀ (b : Bool) (l : List Char), (dropAfterPunct b l).Sublist l
  | _, [] => .slnil
  | b, c :: cs => by
    simp only [dropAfterPunct]
    split_ifs
    · exact (dropAfterPunct_sublist true cs).cons c
    · exact (dropAfterPunct_sublist (isPunct c) cs).cons₂ c

/-- `dropBeforePunct` keeps the first character, or starts at a character of `[,;()]`. -/
theorem dropBeforePunct_head? : ∀ l : List Char,
    (dropBeforePunct l).head? = l.head? ∨ (dropBeforePunct l).head?.any isPunct = true
  | [] => .inl rfl
  | c :: cs => by
    simp only [dropBeforePunct]
    split_ifs with h
    · exact .inr (by simp_all)
    · exact .inl rfl

theorem dropAfterPunct_false_head? : ∀ l : List Char, (dropAfterPunct false l).head? = l.head?
  | [] => rfl
  | _ :: _ => by simp [dropAfterPunct]

/-- `dropBeforePunct` leaves no whitespace before a character of `[,;()]` and makes no
    two whitespace characters neighbours. -/
theorem dropBeforePunct_chain : ∀ {l : List Char}, l.Chain' (fun a b => ¬(isSpaceChar a ∧ isSpaceChar b)) →
    (dropBeforePunct l).Chain' fun a b => ¬(isSpaceChar a ∧ isSpaceChar b) ∧ ¬(isSpaceChar a ∧ isPunct b)
  | [], _ => List.chain'_nil
  | c :: cs, h => by
    obtain ⟨hc, hcs⟩ := List.chain'_cons'.1 h
    have ih := dropBeforePunct_chain hcs
    simp only [dropBeforePunct]
    split_ifs with hd
    · exact ih
    · refine List.chain'_cons'.2 ⟨fun y hy => ⟨fun hs => ?_, fun hp => hd (by simp_all)⟩, ih⟩
      rcases dropBeforePunct_head? cs with he | he
      · rw [he] at hy
        exact hc y hy hs
      · rw [hy] at he
        simp [isSpaceChar_of_isPunct he] at hs

/-- `dropAfterPunct` then leaves no whitespace after a character of `[,;()]` either; after
    one, it starts with no whitespace. -/
theorem dropAfterPunct_chain : ∀ {l : List Char} (b : Bool),
    l.Chain' (fun a b => ¬(isSpaceChar a ∧ isSpaceChar b) ∧ ¬(isSpaceChar a ∧ isPunct b)) →
    (dropAfterPunct b l).Chain' Tight ∧ (b = true → (dropAfterPunct b l).head?.any isSpaceChar = false)
  | [], _, _ => ⟨List.chain'_nil, fun _ => rfl⟩
  | c :: cs, b, h => by
    obtain ⟨hc, hcs⟩ := List.chain'_cons'.1 h
    simp only [dropAfterPunct]
    split_ifs with hb
    · exact ⟨(dropAfterPunct_chain true hcs).1, fun _ => (dropAfterPunct_chain true hcs).2 rfl⟩
    · obtain ⟨ih₁, ih₂⟩ := dropAfterPunct_chain (isPunct c) hcs
      refine ⟨List.chain'_cons'.2 ⟨fun y hy => ?_, ih₁⟩, fun hb' => by simp_all⟩
      cases hp : isPunct c
      · rw [hp, dropAfterPunct_false_head?] at hy
        obtain ⟨h₁, h₂⟩ := hc y hy
        exact ⟨h₁, h₂, by simp [hp]⟩
      · have hy' := ih₂ hp
        rw [Option.mem_def] at hy
        rw [hy, Option.any_some] at hy'
        simp [Tight, hy', isSpaceChar_of_isPunct hp]

/-- **The two substitutions normalise**: after them, the whitespace of a text is single
    spaces, none next to a character of `[,;()]`. -/
theorem tighten_squeeze_normalized (l : List Char) : Normalized (tighten (squeeze l)) :=
  ⟨fun c hc => squeeze_spaces l c
      (((dropAfterPunct_sublist _ _).trans (dropBeforePunct_sublist _)).subset hc),
    (dropAfterPunct_chain false (dropBeforePunct_chain (squeeze_chain l))).1⟩

/-- The two substitutions of `clean_signature`, one after the other. -/
theorem subs_eq (s : String) :
    punctSpaces.sub Match.group (spaceRun.sub (fun _ => " ") s) = ⟨tighten (squeeze s.data)⟩ :=
  String.ext (by rw [punctSpaces_sub, spaceRun_sub])

/-- **What `clean_signature` computes**: `tighten (squeeze _)` of the joined lines, cut to
    200 characters; the two `re.sub` calls compute `squeeze` and `tighten`. -/
theorem cleanSignature_eq (rawSig : String) :
    cleanSignature rawSig =
      let sig := tighten (squeeze (join " " ((rawSig.split (· = '\n')).filterMap cleanLine)).data)
      if sig = [] then none else some ⟨sig.take 200⟩ := by
  simp only [cleanSignature, subs_eq]
  simp [String.ext_iff]

/-- **`clean_signature` normalises**: a signature it returns is not empty, has at most
    200 characters, and is `Normalized`. -/
theorem cleanSignature_normalized {rawSig sig : String} (h : cleanSignature rawSig = some sig) :
    sig ≠ "" ∧ sig.length ≤ 200 ∧ Normalized sig.data := by
  simp only [cleanSignature, subs_eq] at h
  split_ifs at h with he
  obtain rfl := Option.some_inj.1 h
  refine ⟨?_, ?_, (tighten_squeeze_normalized _).take 200⟩
  · simpa [String.ext_iff] using he
  · simp [String.length]

theorem cleanSignature_normalized_sample :
    cleanSignature "port.c: kern_return_t mach_msg ( mach_msg_header_t *msg );" =
        some "kern_return_t mach_msg(mach_msg_header_t *msg);" ∧
      "kern_return_t mach_msg(mach_msg_header_t *msg);" ≠ "" ∧
      "kern_return_t mach_msg(mach_msg_header_t *msg);".length ≤ 200 ∧
      Normalized "kern_return_t mach_msg(mach_msg_header_t *msg);".data :=
  have h : cleanSignature "port.c: kern_return_t mach_msg ( mach_msg_header_t *msg );" =
      some "kern_return_t mach_msg(mach_msg_header_t *msg);" := by
    simp only [cleanSignature, String.split_of_valid]; decide
  ⟨h, cleanSignature_normalized h⟩

/-! ## The extraction loop -/

/-- `ipc_functions` of `extract_function_signatures`. -/
def ipcFunctions : List String :=
  ["mach_msg", "mach_msg_send", "mach_msg_receive", "port_allocate", "port_deallocate",
    "port_insert_right", "task_create", "task_terminate", "task_suspend", "thread_create",
    "thread_terminate", "thread_suspend", "vm_allocate", "vm_deallocate", "vm_map",
    "semaphore_create", "semaphore_signal", "semaphore_wait", "mutex_lock", "mutex_unlock",
    "mutex_init"]

namespace IPCMapper

variable (grep : String → String → String)

/-- One iteration of the loop of `extract_function_signatures` for the system at `path`:
    `grep path func` is what `grep -A2 ... | head -20` prints for `func`. -/
def addSignature (path : String) (signatures : Dict String String) (func : String) :
    Dict String String :=
  if grep path func = "" then signatures
  else match cleanSignature (grep path func) with
    | some sig => signatures.upsert func fun _ => sig
    | none => signatures

/-- The signatures `extract_function_signatures` finds in the system at `path`. -/
def signaturesAt (path : String) : Dict String String :=
  ipcFunctions.foldl (addSignature grep path) .empty

/-- `extract_function_signatures(system_name)`; `none` is the `KeyError` of a system
    that is not registered. -/
def extractFunctionSignatures (m : IPCMapper) (systemName : String) : Option IPCMapper :=
  (m.systems.get? systemName).map fun path =>
    { m with interfaces := m.interfaces.upsert systemName fun _ => ⟨some (signaturesAt grep path)⟩ }

/-- The extraction loop of `run_analysis`: `extract_function_signatures` for each
    registered system in turn. -/
def extractInterfaces (m : IPCMapper) : Option IPCMapper :=
  m.systems.keys.foldlM (fun m s => extractFunctionSignatures grep m s) m

/-- `IPCMapper(base_path)`: the four systems, under `base_path`, and no interface. -/
def init (basePath : String) : IPCMapper :=
  ⟨⟨[("CMU-Mach-MK83", basePath ++ "/CMU-Mach-MK83"), ("Lites", basePath ++ "/Lites-1.1/lites-1.1"),
      ("Mach4-i386", basePath ++ "/mach4-i386/mach4-i386"),
      ("GNU-OSFMach", basePath ++ "/gnu-osfmach/gnu-osfmach")], by simp only [List.map]; decide⟩, .empty⟩

/-- What one iteration records. -/
theorem get?_addSignature (path : String) (d : Dict String String) (func f : String) :
    (addSignature grep path d func).get? f =
      if f = func ∧ grep path func ≠ "" ∧ (cleanSignature (grep path func)).isSome then
        cleanSignature (grep path func)
      else d.get? f := by
  by_cases hg : grep path func = ""
  · simp [addSignature, hg]
  · cases hc : cleanSignature (grep path func) <;> simp [addSignature, hc, hg, Dict.get?_upsert]

theorem get?_foldl_addSignature (path : String) :
    ∀ (fs : List String) (d : Dict String String) (f : String),
      (fs.foldl (addSignature grep path) d).get? f =
        if f ∈ fs ∧ grep path f ≠ "" ∧ (cleanSignature (grep path f)).isSome then
          cleanSignature (grep path f)
        else d.get? f
  | [], d, f => by simp
  | x :: xs, d, f => by
    rw [List.foldl_cons, get?_foldl_addSignature path xs, get?_addSignature]
    by_cases hx : f = x
    · subst hx
      by_cases h : grep path f ≠ "" ∧ (cleanSignature (grep path f)).isSome <;> simp [h]
    · simp [hx]

/-- **What `extract_function_signatures` records**: for each IPC function that `grep`
    prints something for, what `clean_signature` makes of it, when not `None`. -/
theorem signaturesAt_get? (path f : String) :
    (signaturesAt grep path).get? f =
      if f ∈ ipcFunctions ∧ grep path f ≠ "" then cleanSignature (grep path f) else none := by
  rw [signaturesAt, get?_foldl_addSignature]
  by_cases h : (cleanSignature (grep path f)).isSome <;> simp_all

/-- The IPC functions found in the system at `path`. -/
def found (path : String) : Finset String :=
  (ipcFunctions.filter fun f => grep path f != "" && (cleanSignature (grep path f)).isSome).toFinset

theorem mem_signaturesAt_keys {path f : String} :
    f ∈ (signaturesAt grep path).keys ↔ f ∈ found grep path := by
  rw [← Dict.get?_isSome_iff, signaturesAt_get?, found, List.mem_toFinset, List.mem_filter]
  split_ifs with h <;> simp_all

/-- One run of the loop over some of the registered systems, in order. -/
theorem foldlM_extractFunctionSignatures :
    ∀ (ks : List String) (m : IPCMapper), ks.Nodup → (∀ s ∈ ks, s ∈ m.systems.keys) →
      ∃ m', ks.foldlM (fun m s => extractFunctionSignatures grep m s) m = some m' ∧
        m'.systems = m.systems ∧
        m'.interfaces.keys = m.interfaces.keys ++ ks.filter (· ∉ m.interfaces.keys) ∧
        ∀ s, m'.interfaces.get? s =
          if s ∈ ks then (m.systems.get? s).map fun path => ⟨some (signaturesAt grep path)⟩
          else m.interfaces.get? s
  | [], m, _, _ => ⟨m, rfl, rfl, by simp, by simp⟩
  | s :: ks, m, hnd, hks => by
    obtain ⟨hs, hnd⟩ := List.nodup_cons.1 hnd
    obtain ⟨path, hpath⟩ := Option.isSome_iff_exists.1
      ((Dict.get?_isSome_iff _ _).2 (hks s (List.mem_cons_self _ _)))
    obtain ⟨m', hm', hsys, hkeys, hget⟩ := foldlM_extractFunctionSignatures ks
      { m with interfaces := m.interfaces.upsert s fun _ => ⟨some (signaturesAt grep path)⟩ } hnd
      fun s' h => hks s' (List.mem_cons_of_mem _ h)
    refine ⟨m', by simpa [List.foldlM_cons, extractFunctionSignatures, hpath] using hm', hsys, ?_, fun s' => ?_⟩
    · rw [hkeys, Dict.keys_upsert]
      by_cases hm : s ∈ m.interfaces.keys
      · simp [hm]
      · have : ks.filter (· ∉ m.interfaces.keys ++ [s]) = ks.filter (· ∉ m.interfaces.keys) :=
          List.filter_congr fun x hx => by simp [show x ≠ s from fun e => hs (e ▸ hx)]
        rw [if_neg hm, this]
        simp [hm, List.filter_cons]
    · rw [hget, Dict.get?_upsert]
      by_cases h₁ : s' = s
      · subst h₁; simp [hs, hpath]
      · simp [h₁]

/-- **The extraction loop of `run_analysis`.** From any state the loop never raises; it
    keeps `self.systems`, adds an interface for each registered system that has none, in
    `self.systems` order, and gives each registered system the signatures found at its
    path; the other interfaces stay. -/
theorem extractInterfaces_spec (m : IPCMapper) :
    ∃ m', extractInterfaces grep m = some m' ∧ m'.systems = m.systems ∧
      m'.interfaces.keys = m.interfaces.keys ++ m.systems.keys.filter (· ∉ m.interfaces.keys) ∧
      ∀ s, m'.interfaces.get? s =
        ((m.systems.get? s).map fun path => ⟨some (signaturesAt grep path)⟩).or (m.interfaces.get? s) := by
  obtain ⟨m', h, hsys, hkeys, hget⟩ :=
    foldlM_extractFunctionSignatures grep m.systems.keys m m.systems.nodup fun _ => id
  refine ⟨m', h, hsys, hkeys, fun s => ?_⟩
  rw [hget]
  split_ifs with hs
  · obtain ⟨path, hp⟩ := Option.isSome_iff_exists.1 ((Dict.get?_isSome_iff _ _).2 hs)
    simp [hp]
  · rw [Option.not_isSome_iff_eq_none.1 (mt (Dict.get?_isSome_iff _ _).1 hs)]
    rfl

theorem sigSet_of_get? {m : IPCMapper} {s : String} {d : Dict String String}
    (h : m.interfaces.get? s = some ⟨some d⟩) : m.sigSet s = d.keys.toFinset := by
  simp [sigSet, h]

theorem signaturesAt_keys_toFinset (path : String) : (signaturesAt grep path).keys.toFinset = found grep path :=
  Finset.ext fun _ => by rw [List.mem_toFinset, mem_signaturesAt_keys]

/-- **The score `run_analysis` prints**: after the extraction loop, the compatibility of two
    registered systems is the Jaccard similarity of the IPC functions found at their
    paths. -/
theorem extractInterfaces_score (m : IPCMapper) {s₁ s₂ p₁ p₂ : String}
    (h₁ : m.systems.get? s₁ = some p₁) (h₂ : m.systems.get? s₂ = some p₂) :
    ∃ m', extractInterfaces grep m = some m' ∧
      m'.calculateCompatibilityScore s₁ s₂ = jaccard (found grep p₁) (found grep p₂) := by
  obtain ⟨m', h, -, -, hget⟩ :=
    foldlM_extractFunctionSignatures grep m.systems.keys m m.systems.nodup fun _ => id
  have hmem : ∀ {s p}, m.systems.get? s = some p → s ∈ m.systems.keys := fun hs =>
    (Dict.get?_isSome_iff _ _).1 (by rw [hs]; rfl)
  refine ⟨m', h, ?_⟩
  rw [calculateCompatibilityScore_eq_jaccard, sigSet_of_get? (by rw [hget, if_pos (hmem h₁), h₁]; rfl),
    sigSet_of_get? (by rw [hget, if_pos (hmem h₂), h₂]; rfl), signaturesAt_keys_toFinset, signaturesAt_keys_toFinset]

/-- What `grep` prints in a `lites` tree that declares `mach_msg` and `vm_map` and a
    `mach4` tree that declares `mach_msg`. -/
def sampleGrep (path func : String) : String :=
  if func = "mach_msg" ∨ (func = "vm_map" ∧ path = "/base/Lites-1.1/lites-1.1") then
    path ++ "/include/mach.h:extern int " ++ func ++ " ( int x ,\n" ++ path ++ "/include/mach.h-   int y );\n"
  else ""

theorem found_sampleGrep :
    "vm_map" ∈ found sampleGrep "/base/Lites-1.1/lites-1.1" ∧
      "vm_map" ∉ found sampleGrep "/base/mach4-i386/mach4-i386" ∧
      "mach_msg" ∈ found sampleGrep "/base/mach4-i386/mach4-i386" := by
  simp only [found, cleanSignature, String.split_of_valid]
  decide

/-- The score of `lites` and `mach4` is the similarity of `{mach_msg, vm_map}` and
    `{mach_msg}`. -/
theorem extractInterfaces_score_init :
    (init "/base").systems.get? "Lites" = some "/base/Lites-1.1/lites-1.1" ∧
      (init "/base").systems.get? "Mach4-i386" = some "/base/mach4-i386/mach4-i386" ∧
      "vm_map" ∈ found sampleGrep "/base/Lites-1.1/lites-1.1" ∧
      "vm_map" ∉ found sampleGrep "/base/mach4-i386/mach4-i386" ∧
      ∃ m', extractInterfaces sampleGrep (init "/base") = some m' ∧
        m'.calculateCompatibilityScore "Lites" "Mach4-i386" =
          jaccard (found sampleGrep "/base/Lites-1.1/lites-1.1") (found sampleGrep "/base/mach4-i386/mach4-i386") :=
  have h₁ : (init "/base").systems.get? "Lites" = some "/base/Lites-1.1/lites-1.1" := by decide
  have h₂ : (init "/base").systems.get? "Mach4-i386" = some "/base/mach4-i386/mach4-i386" := by decide
  ⟨h₁, h₂, found_sampleGrep.1, found_sampleGrep.2.1, extractInterfaces_score sampleGrep _ h₁ h₂⟩

/-- After the loop, from a state whose interfaces are of registered systems, the systems
    with an interface are the registered ones, each with the functions found at its
    path. -/
theorem extractInterfaces_sigSet (m : IPCMapper) (h : ∀ s ∈ m.interfaces.keys, s ∈ m.systems.keys) :
    ∃ m', extractInterfaces grep m = some m' ∧ m'.systems = m.systems ∧
      (∀ s, s ∈ m'.interfaces.keys ↔ s ∈ m.systems.keys) ∧
      ∀ sp ∈ m.systems.items, m'.sigSet sp.1 = found grep sp.2 := by
  obtain ⟨m', hm, hsys, hkeys, hget⟩ :=
    foldlM_extractFunctionSignatures grep m.systems.keys m m.systems.nodup fun _ => id
  refine ⟨m', hm, hsys, fun s => ?_, fun sp hsp => ?_⟩
  · rw [hkeys, List.mem_append, List.mem_filter]
    by_cases hs : s ∈ m.interfaces.keys <;> simp [hs, h s]
  · have hmem : sp.1 ∈ m.systems.keys := List.mem_map_of_mem _ hsp
    rw [sigSet_of_get? (by rw [hget, if_pos hmem, Dict.get?_of_mem hsp]; rfl), signaturesAt_keys_toFinset]

/-- **The comparison `run_analysis` prints, and its plan.**  After the extraction loop,
    from a state whose interfaces are of registered systems (as `__init__` leaves it),
    `compare_interfaces` has a row for a function exactly when it was found at the path
    of some system, marking it `'Present'` or `'Missing'` for every system in
    `self.systems` order; `generate_synthesis_plan` labels it by the systems it was found
    in, in that order. -/
theorem extractInterfaces_compare (m : IPCMapper) (h : ∀ s ∈ m.interfaces.keys, s ∈ m.systems.keys)
    (ord : SetOrder) (func : String) :
    ∃ m', extractInterfaces grep m = some m' ∧
      ((m'.compareInterfaces ord).get? func).map Dict.items =
        (if ∃ sp ∈ m.systems.items, func ∈ found grep sp.2 then
          some (m.systems.items.map fun sp => (sp.1, if func ∈ found grep sp.2 then "Present" else "Missing"))
        else none) ∧
      (m'.generateSynthesisPlan ord).unifiedInterface.get? func =
        unifiedLabel ((m.systems.items.filter fun sp => func ∈ found grep sp.2).map Prod.fst) := by
  obtain ⟨m', hm, hsys, hkeys, hsig⟩ := extractInterfaces_sigSet grep m h
  have hreg : ∀ sp ∈ m.systems.items, sp.1 ∈ m.systems.keys := fun sp => List.mem_map_of_mem _
  have hcond : ((∃ s ∈ m'.interfaces.keys, func ∈ m'.sigSet s) ∧ ∃ s ∈ m.systems.keys, s ∈ m'.interfaces.keys) ↔
      ∃ sp ∈ m.systems.items, func ∈ found grep sp.2 := by
    constructor
    · rintro ⟨⟨s, hs, hf⟩, -⟩
      obtain ⟨sp, hsp, rfl⟩ := List.mem_map.1 ((hkeys s).1 hs)
      exact ⟨sp, hsp, hsig sp hsp ▸ hf⟩
    · rintro ⟨sp, hsp, hf⟩
      exact ⟨⟨sp.1, (hkeys _).2 (hreg sp hsp), (hsig sp hsp).symm ▸ hf⟩, sp.1, hreg sp hsp, (hkeys _).2 (hreg sp hsp)⟩
  refine ⟨m', hm, ?_, ?_⟩
  · have hrow : m.systems.keys.map (fun s => (s, if func ∈ m'.sigSet s then "Present" else "Missing")) =
        m.systems.items.map fun sp => (sp.1, if func ∈ found grep sp.2 then "Present" else "Missing") := by
      rw [Dict.keys, List.map_map]
      exact List.map_congr_left fun sp hsp => by rw [Function.comp_apply, hsig sp hsp]
    rw [compareInterfaces_get?, hsys, List.filter_eq_self.2 fun s hs => decide_eq_true ((hkeys s).2 hs), hrow]
    simp only [hcond]
  · rw [unifiedInterface_get?_eq, hsys, Dict.keys, List.filter_map]
    congr 2
    refine List.filter_congr fun sp hsp => ?_
    simp [holders, hsig sp hsp, (hkeys _).2 (hreg sp hsp)]

/-- `mach_msg` is found in `mach4` and `lites`, so its row and label name both. -/
theorem extractInterfaces_compare_init :
    (∀ s ∈ (init "/base").interfaces.keys, s ∈ (init "/base").systems.keys) ∧
      "mach_msg" ∈ found sampleGrep "/base/mach4-i386/mach4-i386" ∧
      ∃ m', extractInterfaces sampleGrep (init "/base") = some m' ∧
        ((m'.compareInterfaces .insertion).get? "mach_msg").map Dict.items =
          (if ∃ sp ∈ (init "/base").systems.items, "mach_msg" ∈ found sampleGrep sp.2 then
            some ((init "/base").systems.items.map fun sp =>
              (sp.1, if "mach_msg" ∈ found sampleGrep sp.2 then "Present" else "Missing"))
          else none) ∧
        (m'.generateSynthesisPlan .insertion).unifiedInterface.get? "mach_msg" =
          unifiedLabel (((init "/base").systems.items.filter fun sp => "mach_msg" ∈ found sampleGrep sp.2).map
            Prod.fst) :=
  have h : ∀ s ∈ (init "/base").interfaces.keys, s ∈ (init "/base").systems.keys :=
    fun _ hs => absurd hs (List.not_mem_nil _)
  ⟨h, found_sampleGrep.2.2, extractInterfaces_compare _ _ h _ _⟩

/-! ## The call graph -/

/-- `ipc_funcs` of `build_call_graph`. -/
def ipcFuncs : List String := ["mach_msg", "port_allocate", "task_create", "thread_create"]

/-- The loop of `build_call_graph` over the callers of `func`: an edge from each of the
    first ten lines, but the empty ones and `func` itself. -/
def addCallers (func : String) (callers : List String) (G : PySet (String × String)) : PySet (String × String) :=
  (callers.take 10).foldl (fun G caller => if caller ≠ "" ∧ caller ≠ func then G.add (caller, func) else G) G

/-- The iteration of the loop of `build_call_graph` for `func` in the system at `path`:
    `cscope path func` is the lines `cscope -dL3 func | cut -d' ' -f2 | uniq` prints there,
    each decoded (`none`: a line that is not UTF-8). -/
def callGraphStep (cscope : String → String → List (Option String)) (path : String)
    (G : PySet (String × String)) (func : String) : Except String (PySet (String × String)) :=
  stdoutText (cscope path func) >>= fun out =>
    .ok (if out = "" then G else addCallers func ((strip out).split (· = '\n')) G)

/-- `build_call_graph(system_name)`: the edges of `G`, a `nx.DiGraph` built by `add_edge`
    only.  It raises the `KeyError` of a system that is not registered, and the
    `UnicodeDecodeError` of a line of `cscope` output that is not UTF-8. -/
def buildCallGraph (cscope : String → String → List (Option String)) (m : IPCMapper) (systemName : String) :
    Except String (PySet (String × String)) :=
  match m.systems.get? systemName with
  | none => .error ("KeyError: " ++ systemName)
  | some path => ipcFuncs.foldlM (callGraphStep cscope path) PySet.empty

/-- The edge from `caller` into `func` that the loop over the callers of `func` adds. -/
def CallerEdge (func : String) (callers : List String) (e : String × String) : Prop :=
  e.2 = func ∧ e.1 ∈ callers.take 10 ∧ e.1 ≠ "" ∧ e.1 ≠ func

/-- One iteration of the loop over the callers of `func`. -/
theorem mem_callerStep {func c : String} {G : PySet (String × String)} {e : String × String} :
    e ∈ (if c ≠ "" ∧ c ≠ func then G.add (c, func) else G).elems ↔
      e ∈ G.elems ∨ (e.2 = func ∧ e.1 = c ∧ e.1 ≠ "" ∧ e.1 ≠ func) := by
  obtain ⟨a, b⟩ := e
  split_ifs with hc
  · rw [PySet.mem_add, Prod.mk.injEq]
    constructor
    · rintro (h | ⟨rfl, rfl⟩)
      · exact .inl h
      · exact .inr ⟨rfl, rfl, hc⟩
    · rintro (h | ⟨rfl, rfl, -⟩)
      · exact .inl h
      · exact .inr ⟨rfl, rfl⟩
  · rw [iff_self_or]
    rintro ⟨-, rfl, hc'⟩
    exact absurd hc' hc

theorem mem_addCallers {func : String} {e : String × String} :
    ∀ (l : List String) (G : PySet (String × String)),
      e ∈ (l.foldl (fun G caller => if caller ≠ "" ∧ caller ≠ func then G.add (caller, func) else G) G).elems ↔
        e ∈ G.elems ∨ (e.2 = func ∧ e.1 ∈ l ∧ e.1 ≠ "" ∧ e.1 ≠ func)
  | [], G => by simp
  | c :: l, G => by
    rw [List.foldl_cons, mem_addCallers l, mem_callerStep, List.mem_cons, or_assoc, ← and_or_left,
      ← or_and_right]

/-- An edge of the loop of `build_call_graph` over `fs` is an edge of `G`, or one from a
    caller that `cscope` lists for a function of `fs`. -/
theorem mem_foldlM_callGraphStep (cscope : String → String → List (Option String)) (path : String)
    {e : String × String} : ∀ (fs : List String) (G G' : PySet (String × String)),
      fs.foldlM (callGraphStep cscope path) G = .ok G' → e ∈ G'.elems →
        e ∈ G.elems ∨ ∃ f ∈ fs, ∃ out, stdoutText (cscope path f) = .ok out ∧
          CallerEdge f ((strip out).split (· = '\n')) e
  | [], G, G', h, he => by cases h; exact .inl he
  | f :: fs, G, G', h, he => by
    obtain ⟨G₁, h₁, h₂⟩ := bind_eq_ok.1 h
    obtain ⟨out, ho, h₁⟩ := bind_eq_ok.1 h₁
    cases h₁
    rcases mem_foldlM_callGraphStep cscope path fs _ G' h₂ he with he | ⟨f', hf', rest⟩
    · split_ifs at he
      · exact .inl he
      · rcases (mem_addCallers _ G).1 he with he | hedge
        · exact .inl he
        · exact .inr ⟨f, List.mem_cons_self _ _, out, ho, hedge⟩
    · exact .inr ⟨f', List.mem_cons_of_mem _ hf', rest⟩

/-- **The call graph.**  Every edge of a graph `build_call_graph` builds goes from a
    named caller into one of the four IPC functions, never from a function to itself,
    and no IPC function gets more than ten callers. -/
theorem buildCallGraph_edges (cscope : String → String → List (Option String)) (m : IPCMapper)
    (systemName : String) {G : PySet (String × String)} (h : buildCallGraph cscope m systemName = .ok G) :
    (∀ e ∈ G.elems, e.2 ∈ ipcFuncs ∧ e.1 ≠ "" ∧ e.1 ≠ e.2) ∧ ∀ func, (G.elems.filter (·.2 = func)).length ≤ 10 := by
  unfold buildCallGraph at h
  split at h
  · cases h
  next path _ =>
  have hedge : ∀ e ∈ G.elems, ∃ f ∈ ipcFuncs, ∃ out, stdoutText (cscope path f) = .ok out ∧
      CallerEdge f ((strip out).split (· = '\n')) e :=
    fun e he => (mem_foldlM_callGraphStep cscope path _ _ _ h he).resolve_left (List.not_mem_nil _)
  refine ⟨fun e he => ?_, fun func => ?_⟩
  · obtain ⟨f, hf, -, -, rfl, -, hne, hself⟩ := hedge e he
    exact ⟨hf, hne, hself⟩
  · have hnd : ((G.elems.filter (·.2 = func)).map Prod.fst).Nodup :=
      (List.nodup_map_iff_inj_on (G.nodup.filter _)).2 fun a ha b hb hab =>
        Prod.ext hab ((of_decide_eq_true (List.mem_filter.1 ha).2).trans (of_decide_eq_true (List.mem_filter.1 hb).2).symm)
    have hcallers : ∀ e ∈ G.elems.filter (·.2 = func), ∃ out, stdoutText (cscope path func) = .ok out ∧
        e.1 ∈ ((strip out).split (· = '\n')).take 10 := fun e he => by
      obtain ⟨he, hfunc⟩ := List.mem_filter.1 he
      obtain ⟨f, -, out, ho, hf, hmem, -⟩ := hedge e he
      exact ⟨out, by rwa [← hf, of_decide_eq_true hfunc] at ho, hmem⟩
    cases hout : stdoutText (cscope path func) with
    | error err =>
      refine (List.length_eq_zero.2 (List.eq_nil_iff_forall_not_mem.2 fun e he => ?_)).trans_le (Nat.zero_le _)
      obtain ⟨out, ho, -⟩ := hcallers e he
      rw [hout] at ho
      cases ho
    | ok out₀ =>
      have hsub : (G.elems.filter (·.2 = func)).map Prod.fst ⊆ ((strip out₀).split (· = '\n')).take 10 := by
        intro a ha
        obtain ⟨e, he, rfl⟩ := List.mem_map.1 ha
        obtain ⟨out, ho, hmem⟩ := hcallers e he
        rw [hout, Except.ok.injEq] at ho
        rwa [ho]
      simpa using (hnd.subperm hsub).length_le.trans (List.length_take_le _ _)

/-- What `cscope` prints in a tree where `ipc_send` and `ipc_receive` call `mach_msg`. -/
def twoCallers (_path func : String) : List (Option String) :=
  if func = "mach_msg" then [some "ipc_send", some "ipc_receive"] else []

theorem buildCallGraph_edges_init :
    ∃ G, buildCallGraph twoCallers (init "/base") "Lites" = .ok G ∧ ("ipc_send", "mach_msg") ∈ G.elems ∧
      (∀ e ∈ G.elems, e.2 ∈ ipcFuncs ∧ e.1 ≠ "" ∧ e.1 ≠ e.2) ∧ ∀ func, (G.elems.filter (·.2 = func)).length ≤ 10 := by
  have hv : (buildCallGraph twoCallers (init "/base") "Lites").toOption.map PySet.elems =
      some [("ipc_send", "mach_msg"), ("ipc_receive", "mach_msg")] := by
    delta buildCallGraph callGraphStep
    simp only [String.split_of_valid]
    decide
  cases hG : buildCallGraph twoCallers (init "/base") "Lites" with
  | error err => rw [hG] at hv; cases hv
  | ok G =>
    have hel : G.elems = [("ipc_send", "mach_msg"), ("ipc_receive", "mach_msg")] := by
      rw [hG] at hv; exact Option.some_inj.1 hv
    exact ⟨G, rfl, by rw [hel]; decide, buildCallGraph_edges _ _ _ hG⟩

end IPCMapper

end MachSynth
