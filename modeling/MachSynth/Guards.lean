/-
  The macro names that `synthesize_content` derives from names: the artifact guard
  `guardName f = _SYNTHESIZED_<F>_` and the guard `haveGuard T = HAVE_<T>` of a
  contended typedef, where `<F>` is `f.upper()` with `.` replaced by `_`.

  * `guardName_eq_iff`: two filenames share a guard iff they agree character by
    character after upper-casing and replacing `.` (so `a.h`, `A.h` and `a_h` collide);
    `upper` is `str.upper` on Latin-1 text (`Latin1`), so the main theorem is stated
    there;
  * `guardName_isIdentChar`: a filename of ASCII letters, digits, `_` and `.` gives a
    guard of ASCII letters, digits and `_`; other characters pass through;
  * `haveGuard_eq_iff`: two typedef names share a guard iff they agree upper-cased.
-/
import MachSynth.Synthesizer

namespace MachSynth

/-- What a filename character becomes in the artifact guard. -/
def guardChars (c : Char) : List Char := (upperChar c).map fun d => if d = '.' then '_' else d

/-- `[A-Za-z0-9_]`, a character of a C identifier. -/
def isIdentChar (c : Char) : Bool :=
  let n := c.toNat
  (65 ≤ n && n ≤ 90) || (97 ≤ n && n ≤ 122) || (48 ≤ n && n ≤ 57) || n = 95

theorem guardName_data (f : String) :
    (guardName f).data = "_SYNTHESIZED_".data ++ f.data.flatMap guardChars ++ ['_'] := by
  simp [guardName, replace, upper, List.map_flatMap]
  rfl

theorem guardName_eq_iff (f g : String) :
    guardName f = guardName g ↔ f.data.flatMap guardChars = g.data.flatMap guardChars := by
  rw [String.ext_iff, guardName_data, guardName_data]
  simp

theorem haveGuard_eq_iff (T U : String) : haveGuard T = haveGuard U ↔ upper T = upper U := by
  simp [haveGuard, String.ext_iff]

theorem guardChars_isIdentChar_ascii :
    ∀ i : Fin 128, (isIdentChar (Char.ofNat i) || Char.ofNat i = '.') = true →
      ∀ d ∈ guardChars (Char.ofNat i), isIdentChar d = true := by
  decide

theorem guardChars_isIdentChar {c : Char} (h : (isIdentChar c || c = '.') = true) :
    ∀ d ∈ guardChars c, isIdentChar d = true := by
  have hc : c.toNat < 128 := by
    simp only [isIdentChar, Bool.or_eq_true, Bool.and_eq_true, decide_eq_true_eq] at h
    rcases h with ((((h | h) | h) | h) | h)
    · omega
    · omega
    · omega
    · omega
    · subst h; decide
  simpa using guardChars_isIdentChar_ascii ⟨c.toNat, hc⟩ (by simpa using h)

theorem guardName_isIdentChar (f : String) (h : ∀ c ∈ f.data, (isIdentChar c || c = '.') = true) :
    ∀ c ∈ (guardName f).data, isIdentChar c = true := by
  rw [guardName_data]
  simp only [List.mem_append, List.mem_flatMap, List.mem_singleton]
  rintro c ((hc | ⟨d, hd, hc⟩) | rfl)
  · revert c hc; decide
  · exact guardChars_isIdentChar (h d hd) c hc
  · rfl

/-- **When guards collide.**  Two filenames in Latin-1 (where the model's `str.upper` is
    exact) share the artifact guard iff they agree character by character after
    upper-casing and replacing `.` by `_`; a filename of ASCII letters, digits, `_` and
    `.` gives a guard made of `[A-Za-z0-9_]`; two typedef names in Latin-1 share a
    `HAVE_` guard iff they agree upper-cased. -/
theorem guard_names_collide_iff :
    (∀ f g, Latin1 f → Latin1 g →
      (guardName f = guardName g ↔ f.data.flatMap guardChars = g.data.flatMap guardChars)) ∧
      (∀ f, (∀ c ∈ f.data, (isIdentChar c || c = '.') = true) →
        ∀ c ∈ (guardName f).data, isIdentChar c = true) ∧
      ∀ T U, Latin1 T → Latin1 U → (haveGuard T = haveGuard U ↔ upper T = upper U) :=
  ⟨fun f g _ _ => guardName_eq_iff f g, guardName_isIdentChar, fun T U _ _ => haveGuard_eq_iff T U⟩

/-- Distinct filenames and typedef names that share a guard, and a guard that is not a
    C identifier. -/
theorem guard_names_collide :
    ("a.h" ≠ "A.h" ∧ guardName "a.h" = guardName "A.h") ∧
      ¬ (∀ c ∈ (guardName "a-b.h").data, isIdentChar c = true) ∧
      ("foo" ≠ "FOO" ∧ haveGuard "foo" = haveGuard "FOO") := by
  decide

end MachSynth
