/-
  What a pattern matches, whatever order the backtracking matcher tries the
  alternatives in, and the matcher of `MachSynth.Regex` against it.

  * `Re.Matches fl r p q`: `r` matches the text between the points `p` and `q`; a
    repetition is a sequence of iterations that each consume text (an iteration that
    consumes nothing adds no end);
  * `mem_run_iff`: `Re.run` lists exactly these ends;
  * `Pos.Along p q`: `q` is `p` or a later point of the same subject;
    `searchFrom_isSome`: `re.search` finds a match when one starts at a point of the
    subject, and `searchFrom_leftmost`: it returns the first match at the leftmost such
    point; `search_spec` puts the two together: what `re.search` returns, and when;
    `mem_findallFrom`: every text `re.findall` returns is the group of a match that
    starts at a point of the subject.
-/
import MachSynth.Regex

namespace MachSynth

/-! ## Matches -/

/-- `r` matches the text between `p` and `q`. -/
inductive Re.Matches (fl : Flags) : Re → Pos → Pos → Prop
  | chr {c : Char} {prev : Option Char} {cs : List Char} :
      Re.Matches fl (.chr c) ⟨prev, c :: cs⟩ ⟨some c, cs⟩
  | cls {k : Cls} {prev : Option Char} {c : Char} {cs : List Char} :
      k.test fl c = true → Re.Matches fl (.cls k) ⟨prev, c :: cs⟩ ⟨some c, cs⟩
  | bol {p : Pos} : p.atBol fl = true → Re.Matches fl .bol p p
  | eol {p : Pos} : p.atEol fl = true → Re.Matches fl .eol p p
  | seq {r s : Re} {p q t : Pos} : Re.Matches fl r p q → Re.Matches fl s q t → Re.Matches fl (.seq r s) p t
  | starNil {g : Bool} {r : Re} {p : Pos} : Re.Matches fl (.star g r) p p
  | starCons {g : Bool} {r : Re} {p q t : Pos} : Re.Matches fl r p q → q.rest.length < p.rest.length →
      Re.Matches fl (.star g r) q t → Re.Matches fl (.star g r) p t
  | optSome {r : Re} {p q : Pos} : Re.Matches fl r p q → Re.Matches fl (.opt r) p q
  | optNone {r : Re} {p : Pos} : Re.Matches fl (.opt r) p p
  | eps {p : Pos} : Re.Matches fl .eps p p

theorem mem_consume_iff {p q : Pos} {ok : Char → Bool} :
    q ∈ p.consume ok ↔ ∃ c cs, p.rest = c :: cs ∧ ok c = true ∧ q = ⟨some c, cs⟩ := by
  unfold Pos.consume
  split
  · next c cs h => split_ifs with hc <;> simp [h, hc, and_assoc]
  · next h => simp [h]

theorem mem_starRun_succ {g : Bool} {f : Pos → List Pos} {n : Nat} {p q : Pos} :
    q ∈ starRun g f (n + 1) p ↔
      q = p ∨ ∃ a ∈ f p, a.rest.length < p.rest.length ∧ q ∈ starRun g f n a := by
  simp only [starRun]
  split_ifs <;> simp [List.mem_flatMap, and_assoc, or_comm]

/-- More fuel loses no end of a repetition. -/
theorem starRun_mono {g : Bool} {f : Pos → List Pos} :
    ∀ {n m : Nat} {p q : Pos}, q ∈ starRun g f n p → n ≤ m → q ∈ starRun g f m p
  | 0, 0, _, _, h, _ => h
  | 0, _ + 1, p, q, h, _ => by
    simp only [starRun, List.mem_singleton] at h
    exact mem_starRun_succ.2 (.inl h)
  | _ + 1, 0, _, _, _, h => absurd h (by omega)
  | n + 1, m + 1, p, q, h, hnm => by
    rcases mem_starRun_succ.1 h with rfl | ⟨a, ha, hlt, hq⟩
    · exact mem_starRun_succ.2 (.inl rfl)
    · exact mem_starRun_succ.2 (.inr ⟨a, ha, hlt, starRun_mono hq (by omega)⟩)

theorem starRun_sound {fl : Flags} {g : Bool} {r : Re} (hr : ∀ p q, q ∈ r.run fl p → r.Matches fl p q) :
    ∀ {n : Nat} {p q : Pos}, q ∈ starRun g (r.run fl) n p → (Re.star g r).Matches fl p q
  | 0, p, q, h => by simp only [starRun, List.mem_singleton] at h; subst h; exact .starNil
  | n + 1, p, q, h => by
    rcases mem_starRun_succ.1 h with rfl | ⟨a, ha, hlt, hq⟩
    · exact .starNil
    · exact .starCons (hr p a ha) hlt (starRun_sound hr hq)

/-- **The matcher is sound**: every end it lists is the end of a match. -/
theorem Re.matches_of_mem_run (fl : Flags) : ∀ (r : Re) {p q : Pos}, q ∈ r.run fl p → r.Matches fl p q
  | .chr c, ⟨prev, _⟩, q, h => by
    obtain ⟨d, cs, rfl, hd, rfl⟩ := mem_consume_iff.1 h
    obtain rfl : d = c := by simpa using hd
    exact .chr
  | .cls k, ⟨prev, _⟩, q, h => by
    obtain ⟨d, cs, rfl, hd, rfl⟩ := mem_consume_iff.1 h
    exact .cls hd
  | .bol, p, q, h | .eol, p, q, h => by
    simp only [Re.run] at h
    split_ifs at h with hb
    · obtain rfl := List.mem_singleton.1 h
      first | exact .bol hb | exact .eol hb
    · simp at h
  | .seq r s, p, q, h => by
    obtain ⟨a, ha, hq⟩ := List.mem_flatMap.1 h
    exact .seq (matches_of_mem_run fl r ha) (matches_of_mem_run fl s hq)
  | .star g r, p, q, h => starRun_sound (fun _ _ => matches_of_mem_run fl r) h
  | .opt r, p, q, h => by
    rcases List.mem_append.1 h with h | h
    · exact .optSome (matches_of_mem_run fl r h)
    · obtain rfl := List.mem_singleton.1 h; exact .optNone
  | .eps, p, q, h => by obtain rfl := List.mem_singleton.1 h; exact .eps

/-- **The matcher is complete**: it lists the end of every match. -/
theorem Re.Matches.mem_run {fl : Flags} {r : Re} {p q : Pos} (h : r.Matches fl p q) : q ∈ r.run fl p := by
  induction h with
  | chr => simp [Re.run, Pos.consume]
  | cls hc => simp [Re.run, Pos.consume, hc]
  | bol hb => simp [Re.run, hb]
  | eol he => simp [Re.run, he]
  | seq _ _ ih₁ ih₂ => exact List.mem_flatMap.2 ⟨_, ih₁, ih₂⟩
  | starNil => exact mem_starRun_succ.2 (.inl rfl)
  | starCons _ hlt _ ih₁ ih₂ => exact mem_starRun_succ.2 (.inr ⟨_, ih₁, hlt, starRun_mono ih₂ (by omega)⟩)
  | optSome _ ih => exact List.mem_append_left _ ih
  | optNone => exact List.mem_append_right _ (List.mem_singleton_self _)
  | eps => exact List.mem_singleton_self _

theorem mem_run_iff {fl : Flags} {r : Re} {p q : Pos} : q ∈ r.run fl p ↔ r.Matches fl p q :=
  ⟨Re.matches_of_mem_run fl r, Re.Matches.mem_run⟩

/-! ## Points of a subject -/

/-- `q` is `p` or a later point of the same subject. -/
inductive Pos.Along : Pos → Pos → Prop
  | refl (p : Pos) : Along p p
  | next {prev : Option Char} {c : Char} {cs : List Char} {q : Pos} :
      Along ⟨some c, cs⟩ q → Along ⟨prev, c :: cs⟩ q

theorem Pos.Along.trans {p q r : Pos} (h₁ : p.Along q) (h₂ : q.Along r) : p.Along r := by
  induction h₁ with
  | refl => exact h₂
  | next _ ih => exact .next (ih h₂)

theorem Pos.Along.step {p : Pos} {c : Char} {cs : List Char} (h : p.rest = c :: cs) :
    p.Along ⟨some c, cs⟩ := by
  obtain ⟨prev, rest⟩ := p
  simp only at h; subst h
  exact .next (.refl _)

theorem Re.Matches.along {fl : Flags} {r : Re} {p q : Pos} (h : r.Matches fl p q) : p.Along q := by
  induction h with
  | chr | cls _ => exact .next (.refl _)
  | bol _ | eol _ | starNil | optNone | eps => exact .refl _
  | seq _ _ ih₁ ih₂ | starCons _ _ _ ih₁ ih₂ => exact ih₁.trans ih₂
  | optSome _ ih => exact ih

theorem Pos.Along.length_le {p q : Pos} (h : p.Along q) : q.rest.length ≤ p.rest.length := by
  induction h with
  | refl => exact le_rfl
  | next _ ih => simp only [List.length_cons] at ih ⊢; omega

theorem Re.Matches.seq_inv {fl : Flags} {r s : Re} {p t : Pos} (h : (Re.seq r s).Matches fl p t) :
    ∃ q, r.Matches fl p q ∧ s.Matches fl q t := by
  cases h with
  | seq h₁ h₂ => exact ⟨_, h₁, h₂⟩

theorem Re.Matches.bol_inv {fl : Flags} {p q : Pos} (h : Re.bol.Matches fl p q) : q = p := by
  cases h; rfl

@[simp] theorem span_self (p : Pos) : span p p = "" := by
  simp only [span, Nat.sub_self, List.take_zero]

/-- The text from a point to a later one is its first character and the text from the
    next point on. -/
theorem span_cons {prev : Option Char} {c : Char} {cs : List Char} {q : Pos}
    (h : Pos.Along ⟨some c, cs⟩ q) : span ⟨prev, c :: cs⟩ q = ⟨c :: (span ⟨some c, cs⟩ q).data⟩ := by
  have := h.length_le
  simp only [span, List.length_cons] at this ⊢
  rw [show cs.length + 1 - q.rest.length = cs.length - q.rest.length + 1 by omega, List.take_succ_cons]

/-- The literal of the text between two points matches it. -/
theorem Re.Matches.lit_span {fl : Flags} {a b : Pos} (h : a.Along b) : (Re.lit (span a b)).Matches fl a b := by
  induction h with
  | refl p => simpa using Re.Matches.eps
  | @next prev c cs q h ih =>
    rw [span_cons h]
    exact .seq .chr ih

/-- Whether a repetition is greedy changes the order of its ends, not the ends. -/
theorem Re.Matches.star_greedy {fl : Flags} {g g' : Bool} {r : Re} {p q : Pos}
    (h : (Re.star g r).Matches fl p q) : (Re.star g' r).Matches fl p q := by
  generalize hR : Re.star g r = R at h
  induction h with
  | starNil => cases hR; exact .starNil
  | starCons h₁ hlt _ _ ih => cases hR; exact .starCons h₁ hlt (ih rfl)
  | chr | cls _ | bol _ | eol _ | seq _ _ | optSome _ | optNone | eps => cases hR

/-- `r` has no `^` or `$`. -/
def Re.anchorless : Re → Bool
  | .bol | .eol => false
  | .seq r s => r.anchorless && s.anchorless
  | .star _ r | .opt r => r.anchorless
  | .chr _ | .cls _ | .eps => true

/-- A pattern without anchors matches under any flags whose classes accept more. -/
theorem Re.Matches.flags {fl fl' : Flags} (hk : ∀ (k : Cls) c, k.test fl c = true → k.test fl' c = true)
    {r : Re} {p q : Pos} (h : r.Matches fl p q) (hr : r.anchorless = true) : r.Matches fl' p q := by
  induction h with
  | chr => exact .chr
  | cls hc => exact .cls (hk _ _ hc)
  | bol _ | eol _ => simp [Re.anchorless] at hr
  | seq _ _ ih₁ ih₂ =>
    simp only [Re.anchorless, Bool.and_eq_true] at hr
    exact .seq (ih₁ hr.1) (ih₂ hr.2)
  | starNil => exact .starNil
  | starCons _ hlt _ ih₁ ih₂ => exact .starCons (ih₁ hr) hlt (ih₂ hr)
  | optSome _ ih => exact .optSome (ih hr)
  | optNone => exact .optNone
  | eps => exact .eps

/-- A match of a pattern: its parts match `pre`, the group and `post` in turn. -/
def Pattern.Matches (P : Pattern) (m : Match) : Prop :=
  P.pre.Matches P.flags m.start m.gstart ∧ P.grp.Matches P.flags m.gstart m.gend ∧
    P.post.Matches P.flags m.gend m.stop

theorem mem_matchesAt_iff {P : Pattern} {p : Pos} {m : Match} :
    m ∈ P.matchesAt p ↔ m.start = p ∧ P.Matches m := by
  simp only [Pattern.matchesAt, List.mem_flatMap, List.mem_map, mem_run_iff, Pattern.Matches]
  constructor
  · rintro ⟨a, ha, b, hb, e, he, rfl⟩; exact ⟨rfl, ha, hb, he⟩
  · obtain ⟨s, a, b, e⟩ := m
    rintro ⟨rfl, ha, hb, he⟩; exact ⟨a, ha, b, hb, e, he, rfl⟩

theorem Pattern.Matches.along {P : Pattern} {m : Match} (h : P.Matches m) : m.start.Along m.stop :=
  h.1.along.trans (h.2.1.along.trans h.2.2.along)

/-! ## Search -/

/-- **`re.search` misses no match**: when a match starts at a point of the subject from
    `s` on, the search from `s` finds one. -/
theorem searchFrom_isSome {P : Pattern} {s p : Pos} {m : Match} (hp : s.Along p)
    (hm : m ∈ P.matchesAt p) : (P.searchFrom s.prev s.rest).isSome := by
  induction hp with
  | refl p =>
    obtain ⟨prev, _ | ⟨c, cs⟩⟩ := p <;> simp only [Pattern.searchFrom]
    · exact List.head?_isSome.2 (List.ne_nil_of_mem hm)
    · cases h : (P.matchesAt _).head? with
      | some => rfl
      | none => simp_all
  | next _ ih => simp only [Pattern.searchFrom]; cases (P.matchesAt _).head? <;> simp_all

theorem Pos.Along.cons_inv {prev : Option Char} {c : Char} {cs : List Char} {p : Pos}
    (h : Pos.Along ⟨prev, c :: cs⟩ p) : p = ⟨prev, c :: cs⟩ ∨ Pos.Along ⟨some c, cs⟩ p := by
  cases h with
  | refl => exact .inl rfl
  | next h => exact .inr h

/-- **`re.search` takes the leftmost start**: the match it returns starts at a point of
    the subject before which no match starts, and is the first there in the matcher's
    order. -/
theorem searchFrom_leftmost {P : Pattern} {m : Match} :
    ∀ {prev : Option Char} {cs : List Char}, P.searchFrom prev cs = some m →
      Pos.Along ⟨prev, cs⟩ m.start ∧ (P.matchesAt m.start).head? = some m ∧
      ∀ p, Pos.Along ⟨prev, cs⟩ p → m.start.rest.length < p.rest.length → P.matchesAt p = []
  | prev, [], h => by
    have hs := (mem_matchesAt_iff.1 (List.mem_of_mem_head? h)).1
    refine ⟨hs ▸ .refl _, hs ▸ h, fun p hp hlt => ?_⟩
    have := hp.length_le
    simp only [hs, List.length_nil] at hlt this
    omega
  | prev, c :: cs, h => by
    simp only [Pattern.searchFrom] at h
    cases hm : (P.matchesAt ⟨prev, c :: cs⟩).head? with
    | some m' =>
      rw [hm, Option.or_some] at h
      obtain rfl := Option.some_inj.1 h
      have hs := (mem_matchesAt_iff.1 (List.mem_of_mem_head? hm)).1
      refine ⟨hs ▸ .refl _, hs ▸ hm, fun p hp hlt => absurd hp.length_le ?_⟩
      rw [hs] at hlt
      omega
    | none =>
      rw [hm, Option.none_or] at h
      obtain ⟨h₀, h₁, h₂⟩ := searchFrom_leftmost h
      refine ⟨.next h₀, h₁, fun p hp hlt => ?_⟩
      rcases hp.cons_inv with rfl | hp
      · exact List.head?_eq_none_iff.1 hm
      · exact h₂ p hp hlt

theorem Pos.Along.eq_of_length_eq {p q : Pos} (h : p.Along q) (hl : q.rest.length = p.rest.length) : q = p := by
  cases h with
  | refl => rfl
  | next h => have := h.length_le; simp only [List.length_cons] at hl this; omega

/-- Two later points of one subject at the same distance from its end are one point. -/
theorem Pos.Along.eq_of_length {p a b : Pos} (ha : p.Along a) (hb : p.Along b)
    (hl : a.rest.length = b.rest.length) : a = b := by
  induction ha with
  | refl => exact (hb.eq_of_length_eq hl.symm).symm
  | next ha ih =>
    rcases hb.cons_inv with rfl | hb
    · have := ha.length_le; simp only [List.length_cons] at hl this; omega
    · exact ih hb hl

/-- **What `re.search` returns.**  It is `None` exactly when no match starts in the
    subject; otherwise it is the match that comes first, in the matcher's order, at the
    leftmost point where a match starts, and only that match. -/
theorem search_spec (P : Pattern) (s : String) :
    (P.search s = none ↔ ∀ m, P.Matches m → ¬Pos.Along ⟨none, s.data⟩ m.start) ∧
      ∀ m, P.search s = some m ↔ Pos.Along ⟨none, s.data⟩ m.start ∧ (P.matchesAt m.start).head? = some m ∧
        ∀ m', P.Matches m' → Pos.Along ⟨none, s.data⟩ m'.start → m'.start.rest.length ≤ m.start.rest.length := by
  have hmatch : ∀ {m}, (P.matchesAt m.start).head? = some m → P.Matches m :=
    fun h => (mem_matchesAt_iff.1 (List.mem_of_mem_head? h)).2
  have hsome : ∀ m, P.search s = some m → Pos.Along ⟨none, s.data⟩ m.start ∧
      (P.matchesAt m.start).head? = some m ∧
      ∀ m', P.Matches m' → Pos.Along ⟨none, s.data⟩ m'.start → m'.start.rest.length ≤ m.start.rest.length :=
    fun m h => by
      obtain ⟨h₀, h₁, h₂⟩ := searchFrom_leftmost h
      refine ⟨h₀, h₁, fun m' hm' ha => not_lt.1 fun hlt => ?_⟩
      exact List.not_mem_nil m' (h₂ _ ha hlt ▸ mem_matchesAt_iff.2 ⟨rfl, hm'⟩)
  refine ⟨⟨fun hn m hm ha => ?_, fun h => ?_⟩, fun m => ⟨hsome m, fun ⟨h₀, h₁, h₂⟩ => ?_⟩⟩
  · have := searchFrom_isSome ha (mem_matchesAt_iff.2 ⟨rfl, hm⟩)
    simp only [Pattern.search] at hn
    simp [hn] at this
  · cases hs : P.search s with
    | none => rfl
    | some m => exact absurd (hsome m hs).1 (h m (hmatch (hsome m hs).2.1))
  · obtain ⟨m₀, hm₀⟩ := Option.isSome_iff_exists.1 (searchFrom_isSome h₀ (mem_matchesAt_iff.2 ⟨rfl, hmatch h₁⟩))
    obtain ⟨h₀', h₁', h₂'⟩ := hsome m₀ hm₀
    have he : m₀.start = m.start :=
      Pos.Along.eq_of_length h₀' h₀ (le_antisymm (h₂ m₀ (hmatch h₁') h₀') (h₂' m (hmatch h₁) h₀))
    rw [he, h₁] at h₁'
    exact hm₀.trans h₁'.symm

/-! ## Repetitions of a class -/

/-- The point after the longest run of characters satisfying `ok` from `⟨prev, cs⟩`. -/
def skipWhile (ok : Char → Bool) : Option Char → List Char → Pos
  | prev, [] => ⟨prev, []⟩
  | prev, c :: cs => if ok c then skipWhile ok (some c) cs else ⟨prev, c :: cs⟩

theorem skipWhile_rest (ok : Char → Bool) :
    ∀ (prev : Option Char) (cs : List Char), (skipWhile ok prev cs).rest = cs.dropWhile ok
  | _, [] => rfl
  | prev, c :: cs => by
    by_cases hc : ok c <;> simp [skipWhile, hc, List.dropWhile_cons, skipWhile_rest]

/-- A greedy repetition of a class tries the longest run first, and each shorter run it
    tries next stops before a character of the class. -/
theorem starRun_cls {fl : Flags} {k : Cls} :
    ∀ {n : Nat} {prev : Option Char} {cs : List Char}, cs.length < n →
      ∃ qs, starRun true (fun p => p.consume (k.test fl)) n ⟨prev, cs⟩ = skipWhile (k.test fl) prev cs :: qs ∧
        ∀ q ∈ qs, q.rest.head?.any (k.test fl) = true
  | 0, _, _, h => absurd h (Nat.not_lt_zero _)
  | n + 1, prev, [], _ => ⟨[], by simp [starRun, Pos.consume, skipWhile], by simp⟩
  | n + 1, prev, c :: cs, h => by
    by_cases hc : k.test fl c
    · obtain ⟨qs, hq, hqs⟩ := @starRun_cls fl k n (some c) cs (by simp at h; omega)
      have hf : Pos.consume ⟨prev, c :: cs⟩ (k.test fl) = [⟨some c, cs⟩] := by simp [Pos.consume, hc]
      refine ⟨qs ++ [⟨prev, c :: cs⟩], by simp [starRun, hf, hc, skipWhile, hq], ?_⟩
      intro q hq
      rcases List.mem_append.1 hq with hq | hq
      · exact hqs q hq
      · simp_all
    · exact ⟨[], by simp [starRun, Pos.consume, hc, skipWhile], by simp⟩

/-! ## Substitution -/

/-- Where no match starts, `re.sub` copies the character and goes on. -/
theorem subFrom_skip {P : Pattern} {repl : Match → List Char} {n : Nat} {prev : Option Char}
    {c : Char} {cs : List Char} (h : P.matchesAt ⟨prev, c :: cs⟩ = []) :
    P.subFrom repl n prev (c :: cs) = c :: P.subFrom repl n (some c) cs := by
  cases n with
  | zero => rfl
  | succ n =>
    have hs : P.searchFrom prev (c :: cs) = P.searchFrom (some c) cs := by simp [Pattern.searchFrom, h]
    simp only [Pattern.subFrom, hs]
    cases hm : P.searchFrom (some c) cs with
    | none => rfl
    | some m => simp [span_cons (searchFrom_leftmost hm).1]

/-- At the end of the text, where no match starts, `re.sub` is done. -/
theorem subFrom_nil {P : Pattern} {repl : Match → List Char} {n : Nat} {prev : Option Char}
    (h : P.matchesAt ⟨prev, []⟩ = []) : P.subFrom repl n prev [] = [] := by
  cases n <;> simp [Pattern.subFrom, Pattern.searchFrom, h]

/-- Where a match that consumes text starts, `re.sub` writes its replacement and goes on
    after it. -/
theorem subFrom_here {P : Pattern} {repl : Match → List Char} {n : Nat} {prev : Option Char}
    {cs : List Char} {m : Match} (h : (P.matchesAt ⟨prev, cs⟩).head? = some m)
    (hlt : m.stop.rest.length < cs.length) :
    P.subFrom repl (n + 1) prev cs = repl m ++ P.subFrom repl n m.stop.prev m.stop.rest := by
  have hs : P.searchFrom prev cs = some m := by cases cs <;> simp [Pattern.searchFrom, h]
  have hstart := (mem_matchesAt_iff.1 (List.mem_of_mem_head? h)).1
  simp [Pattern.subFrom, hs, hstart, hlt]

theorem findallFrom_eq_map (P : Pattern) :
    ∀ n prev cs, P.findallFrom n prev cs = (P.finditerFrom n prev cs).map Match.group
  | 0, _, _ => rfl
  | n + 1, prev, cs => by
    simp only [Pattern.findallFrom, Pattern.finditerFrom]
    split
    · rfl
    · simp only [List.map_cons, List.cons.injEq, true_and]
      split_ifs
      · exact findallFrom_eq_map P n _ _
      · split
        · rfl
        · exact findallFrom_eq_map P n _ _

theorem findall_eq_map (P : Pattern) (s : String) : P.findall s = (P.finditer s).map Match.group :=
  findallFrom_eq_map P _ _ _

/-- **Every match `re.finditer` returns comes first**, in the matcher's order, at a point
    of the subject. -/
theorem mem_finditerFrom {P : Pattern} {m : Match} :
    ∀ {n prev cs}, m ∈ P.finditerFrom n prev cs →
      (P.matchesAt m.start).head? = some m ∧ Pos.Along ⟨prev, cs⟩ m.start
  | 0, _, _, h => by simp [Pattern.finditerFrom] at h
  | n + 1, prev, cs, h => by
    simp only [Pattern.finditerFrom] at h
    split at h
    · simp at h
    · next m₀ hm =>
      obtain ⟨hs, hhead, -⟩ := searchFrom_leftmost hm
      have hstop := hs.trans (mem_matchesAt_iff.1 (List.mem_of_mem_head? hhead)).2.along
      rcases List.mem_cons.1 h with rfl | h
      · exact ⟨hhead, hs⟩
      · split_ifs at h
        · obtain ⟨h₁, h₂⟩ := mem_finditerFrom h
          exact ⟨h₁, hstop.trans h₂⟩
        · split at h
          · simp at h
          · next c cs' hc =>
            obtain ⟨h₁, h₂⟩ := mem_finditerFrom h
            exact ⟨h₁, hstop.trans ((Pos.Along.step hc).trans h₂)⟩

/-- **Every text `re.findall` returns is a group**, of a match that starts at a point of
    the subject. -/
theorem mem_findallFrom {P : Pattern} {g : String} {n prev cs} (h : g ∈ P.findallFrom n prev cs) :
    ∃ m ∈ P.matchesAt m.start, Pos.Along ⟨prev, cs⟩ m.start ∧ m.group = g := by
  rw [findallFrom_eq_map] at h
  obtain ⟨m, hm, rfl⟩ := List.mem_map.1 h
  obtain ⟨h₁, h₂⟩ := mem_finditerFrom hm
  exact ⟨m, List.mem_of_mem_head? h₁, h₂, rfl⟩

/-- **A group `(\w+)` captures a word**: every text `re.findall` returns for a pattern
    whose group accepts only word characters is made of word characters. -/
theorem mem_findall_uses {P : Pattern} {s g : String} (h : g ∈ P.findall s) :
    ∀ c ∈ g.data, P.grp.Uses P.flags c := by
  obtain ⟨m, hm, -, rfl⟩ := mem_findallFrom h
  exact group_uses hm

end MachSynth
