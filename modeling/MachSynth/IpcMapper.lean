/-
  `IPCMapper` (ipc_mapper.py): the comparison of the function sets that the systems
  export, and the synthesis plan built from it.

  * `IPCMapper`: the mapper's state, `self.systems` and `self.interfaces`;
  * `compareInterfaces`, `calculateCompatibilityScore`, `generateSynthesisPlan`;
  * `calculateCompatibilityScore_spec`: the score is the Jaccard similarity of the two
    function sets, as a percentage — symmetric, within `[0, 100]`, `0` when a set is
    empty, and `100` exactly for equal nonempty sets;
  * `conflicts_spec`: the conflicts of the plan are the pairs of registered systems
    scoring below `50`, each once, in the orientation `A < B`;
  * `compareInterfaces_get?`, `unifiedInterface_get?_eq`: the row of each function and
    its label, from the registered systems that hold it;
  * `unifiedInterface_spec`: when every interface is a registered system's, the unified
    interface labels exactly the functions that some system declares, `Core`,
    `Optional` (naming the two) or `System-specific` (naming the one) by how many
    systems hold each.
-/
import MachSynth.Python
import Mathlib.Data.Finset.Card
import Mathlib.Algebra.Order.Field.Rat
import Mathlib.Algebra.Order.Field.Basic

namespace MachSynth

/-! ## The mapper -/

/-- One value of `self.interfaces`: the `'function_signatures'` entry, a signature per
    function name, when `extract_function_signatures` has run for the system. -/
structure Interface where
  functionSignatures : Option (Dict String String)

/-- The state of an `IPCMapper`: `self.systems`, a root directory per system name, and
    `self.interfaces`. -/
structure IPCMapper where
  systems : Dict String String
  interfaces : Dict String Interface

namespace IPCMapper

variable (m : IPCMapper)

/-- `set(self.interfaces[s].get('function_signatures', {}).keys())`, empty for a system
    absent from `self.interfaces`. -/
def sigSet (s : String) : Finset String :=
  (((m.interfaces.get? s).bind Interface.functionSignatures).map Dict.keys).getD [] |>.toFinset

/-- `IPCMapper.calculate_compatibility_score(sys1, sys2)`, over exact rationals (the code
    computes the same quotient in floating point). -/
def calculateCompatibilityScore (sys1 sys2 : String) : ℚ :=
  if sys1 ∉ m.interfaces.keys ∨ sys2 ∉ m.interfaces.keys then 0
  else
    let sigs1 := m.sigSet sys1
    let sigs2 := m.sigSet sys2
    if sigs1 = ∅ ∨ sigs2 = ∅ then 0
    else
      let intersection := (sigs1 ∩ sigs2).card
      let union := (sigs1 ∪ sigs2).card
      if union > 0 then (intersection / union : ℚ) * 100 else 0

/-- `IPCMapper.compare_interfaces()`: for each function name of some system (in the
    iteration order `ord` of the set `all_functions`), `'Present'` or `'Missing'` for
    each registered system that has an interface. -/
def compareInterfaces (ord : SetOrder) : Dict String (Dict String String) :=
  let allFunctions : PySet String := m.interfaces.items.foldl
    (fun acc si => ((si.2.functionSignatures.map Dict.keys).getD []).foldl PySet.add acc) .empty
  (ord.order allFunctions.elems).foldl (fun comparison func =>
    m.systems.keys.foldl (fun comparison system =>
      if system ∈ m.interfaces.keys then
        comparison.upsert func fun row =>
          (row.getD .empty).upsert system fun _ => if func ∈ m.sigSet system then "Present" else "Missing"
      else comparison) comparison) .empty

/-- One entry of `plan['conflicts']`; `compatibility` is the score, which the code
    renders as `f'{score:.1f}%'`. -/
structure Conflict where
  systems : List String
  compatibility : ℚ
  severity : String

/-- The conflict entry of a pair, when its score is below `50`. -/
def conflictOf (sys1 sys2 : String) : Option Conflict :=
  let score := m.calculateCompatibilityScore sys1 sys2
  if score < 50 then some ⟨[sys1, sys2], score, if score < 25 then "High" else "Medium"⟩ else none

/-- The conflicts loop of `generate_synthesis_plan`: every pair of registered systems
    with `sys1 < sys2`. -/
def conflicts : List Conflict :=
  m.systems.keys.flatMap fun sys1 =>
    m.systems.keys.filterMap fun sys2 => if sys1 < sys2 then m.conflictOf sys1 sys2 else none

/-- The label of a function present in the systems `presentIn`, if any. -/
def unifiedLabel (presentIn : List String) : Option String :=
  if presentIn.length ≥ 3 then some "Core - present in most systems"
  else if presentIn.length = 2 then some ("Optional - in " ++ join ", " presentIn)
  else match presentIn with
    | [s] => some ("System-specific - only in " ++ s)
    | _ => none

/-- The synthesis plan. -/
structure Plan where
  unifiedInterface : Dict String String
  conflicts : List Conflict
  recommendations : List String

/-- `IPCMapper.generate_synthesis_plan()` -/
def generateSynthesisPlan (ord : SetOrder) : Plan :=
  let unified := (m.compareInterfaces ord).items.foldl (fun plan fs =>
    match unifiedLabel ((fs.2.items.filter fun st => st.2 = "Present").map Prod.fst) with
    | some label => plan.upsert fs.1 fun _ => label
    | none => plan) .empty
  ⟨unified, m.conflicts,
    ["1. Use CMU-Mach-MK83 as base for core IPC (most complete)",
      "2. Integrate Lites BSD compatibility layer for Unix IPC",
      "3. Add Mach4 real-time extensions for priority handling",
      "4. Use GNU-OSFMach for modern compiler compatibility",
      "5. Create abstraction layer to unify different IPC models",
      "6. Implement compatibility shims for missing functions"]⟩

/-! ## The compatibility score -/

/-- The Jaccard similarity of two finite sets as a percentage, `0` when one is empty. -/
def jaccard (s t : Finset String) : ℚ :=
  if s = ∅ ∨ t = ∅ then 0 else ((s ∩ t).card / (s ∪ t).card : ℚ) * 100

theorem sigSet_of_not_mem {s : String} (h : s ∉ m.interfaces.keys) : m.sigSet s = ∅ := by
  have : m.interfaces.get? s = none := Option.not_isSome_iff_eq_none.1 fun h' =>
    h ((Dict.get?_isSome_iff _ _).1 h')
  simp [sigSet, this]

theorem union_card_pos {s t : Finset String} (h : ¬(s = ∅ ∨ t = ∅)) : 0 < (s ∪ t).card := by
  rw [not_or, ← ne_eq, ← Finset.nonempty_iff_ne_empty] at h
  exact (h.1.mono Finset.subset_union_left).card_pos

theorem calculateCompatibilityScore_eq_jaccard (sys1 sys2 : String) :
    m.calculateCompatibilityScore sys1 sys2 = jaccard (m.sigSet sys1) (m.sigSet sys2) := by
  unfold calculateCompatibilityScore jaccard
  by_cases h : sys1 ∉ m.interfaces.keys ∨ sys2 ∉ m.interfaces.keys
  · rcases h with h | h <;> simp [h, sigSet_of_not_mem]
  · rw [if_neg h]
    dsimp only
    split_ifs with h₁ h₂ <;> first | rfl | exact absurd (union_card_pos h₁) h₂

theorem jaccard_comm (s t : Finset String) : jaccard s t = jaccard t s := by
  simp [jaccard, Finset.inter_comm, Finset.union_comm, or_comm]

theorem jaccard_nonneg (s t : Finset String) : 0 ≤ jaccard s t := by
  unfold jaccard
  split_ifs
  · exact le_rfl
  · exact mul_nonneg (div_nonneg (Nat.cast_nonneg _) (Nat.cast_nonneg _)) (by norm_num)

theorem jaccard_le_hundred (s t : Finset String) : jaccard s t ≤ 100 := by
  unfold jaccard
  split_ifs with h
  · norm_num
  · have hu : (0 : ℚ) < (s ∪ t).card := by exact_mod_cast union_card_pos h
    have hle : ((s ∩ t).card : ℚ) ≤ (s ∪ t).card := by
      exact_mod_cast Finset.card_le_card (Finset.inter_subset_left.trans Finset.subset_union_left)
    calc ((s ∩ t).card / (s ∪ t).card : ℚ) * 100 ≤ 1 * 100 :=
          mul_le_mul_of_nonneg_right ((div_le_one hu).2 hle) (by norm_num)
      _ = 100 := one_mul _

theorem jaccard_eq_hundred_iff (s t : Finset String) :
    jaccard s t = 100 ↔ s = t ∧ s ≠ ∅ := by
  unfold jaccard
  split_ifs with h
  · constructor
    · norm_num
    · rintro ⟨rfl, hs⟩; simp_all
  · have hu : ((s ∪ t).card : ℚ) ≠ 0 := by exact_mod_cast (union_card_pos h).ne'
    rw [mul_eq_right₀ (by norm_num), div_eq_one_iff_eq hu, Nat.cast_inj]
    constructor
    · intro hc
      have := Finset.eq_of_subset_of_card_le (Finset.inter_subset_left.trans Finset.subset_union_left) hc.ge
      refine ⟨le_antisymm ?_ ?_, (not_or.1 h).1⟩
      · calc s ⊆ s ∪ t := Finset.subset_union_left
          _ = s ∩ t := this.symm
          _ ⊆ t := Finset.inter_subset_right
      · calc t ⊆ s ∪ t := Finset.subset_union_right
          _ = s ∩ t := this.symm
          _ ⊆ s := Finset.inter_subset_left
    · rintro ⟨rfl, -⟩; simp

/-- **The compatibility score is a Jaccard similarity.**  For every state of
    `self.interfaces` (a system absent from it having no functions), the score is
    symmetric, lies in `[0, 100]`, is `0` when either function set is empty, and is
    `100` exactly when the two sets are equal and nonempty. -/
theorem calculateCompatibilityScore_spec (A B : String) :
    m.calculateCompatibilityScore A B = m.calculateCompatibilityScore B A ∧
      0 ≤ m.calculateCompatibilityScore A B ∧ m.calculateCompatibilityScore A B ≤ 100 ∧
      (m.sigSet A = ∅ ∨ m.sigSet B = ∅ → m.calculateCompatibilityScore A B = 0) ∧
      (m.calculateCompatibilityScore A B = 100 ↔ m.sigSet A = m.sigSet B ∧ m.sigSet A ≠ ∅) := by
  simp only [calculateCompatibilityScore_eq_jaccard]
  exact ⟨jaccard_comm _ _, jaccard_nonneg _ _, jaccard_le_hundred _ _,
    fun h => if_pos h, jaccard_eq_hundred_iff _ _⟩

/-! ## The conflicts of the plan -/

theorem mem_conflicts {c : Conflict} :
    c ∈ m.conflicts ↔ ∃ A ∈ m.systems.keys, ∃ B ∈ m.systems.keys, A < B ∧ m.conflictOf A B = some c := by
  simp only [conflicts, List.mem_flatMap, List.mem_filterMap]
  constructor
  · rintro ⟨A, hA, B, hB, h⟩
    split_ifs at h with hAB
    exact ⟨A, hA, B, hB, hAB, h⟩
  · rintro ⟨A, hA, B, hB, hAB, h⟩
    exact ⟨A, hA, B, hB, by rw [if_pos hAB]; exact h⟩

theorem conflictOf_eq_some {A B : String} {c : Conflict} (h : m.conflictOf A B = some c) :
    m.calculateCompatibilityScore A B < 50 ∧ c = ⟨[A, B], m.calculateCompatibilityScore A B,
      if m.calculateCompatibilityScore A B < 25 then "High" else "Medium"⟩ := by
  unfold conflictOf at h
  dsimp only at h
  by_cases hs : m.calculateCompatibilityScore A B < 50
  · rw [if_pos hs] at h; exact ⟨hs, (Option.some_inj.1 h).symm⟩
  · rw [if_neg hs] at h; cases h

/-- The pair one iteration of the conflicts loop records, if any. -/
theorem conflictOf_systems (A B : String) :
    (if A < B then m.conflictOf A B else none).map Conflict.systems =
      if A < B ∧ m.calculateCompatibilityScore A B < 50 then some [A, B] else none := by
  unfold conflictOf
  dsimp only
  by_cases h : A < B <;> by_cases h' : m.calculateCompatibilityScore A B < 50 <;> simp [h, h']

theorem conflicts_systems_nodup : (m.conflicts.map Conflict.systems).Nodup := by
  simp only [conflicts, List.map_flatMap, List.map_filterMap, conflictOf_systems]
  refine List.nodup_flatMap.2 ⟨fun A _ => m.systems.nodup.filterMap ?_,
    m.systems.nodup.imp fun {A A'} hne => ?_⟩
  · intro B B' l hB hB'
    split_ifs at hB hB' <;> simp only [Option.mem_def, reduceCtorEq, Option.some.injEq] at hB hB'
    subst hB
    simp only [List.cons.injEq, true_and, and_true] at hB'
    exact hB'.symm
  · simp only [List.disjoint_left, List.mem_filterMap]
    rintro l ⟨B, -, hB⟩ ⟨B', -, hB'⟩
    split_ifs at hB hB'
    simp only [Option.some.injEq] at hB hB'
    subst hB
    simp only [List.cons.injEq] at hB'
    exact hne hB'.1.symm

theorem generateSynthesisPlan_conflicts (ord : SetOrder) : (m.generateSynthesisPlan ord).conflicts = m.conflicts :=
  rfl

/-- **The conflicts are the low-scoring pairs, once each.**  For every registered
    systems map and every interfaces state, `[A, B]` is the systems of an entry of the
    conflicts of `generate_synthesis_plan` iff `A` and `B` are registered, `A < B` and
    their score is below `50`; no pair comes twice; and every conflict is such a pair,
    carrying its score, with severity `'High'` iff the score is below `25` and
    `'Medium'` otherwise. -/
theorem conflicts_spec (ord : SetOrder) :
    (∀ A B, (∃ c ∈ (m.generateSynthesisPlan ord).conflicts, c.systems = [A, B]) ↔
      A ∈ m.systems.keys ∧ B ∈ m.systems.keys ∧ A < B ∧ m.calculateCompatibilityScore A B < 50) ∧
    ((m.generateSynthesisPlan ord).conflicts.map Conflict.systems).Nodup ∧
    ∀ c ∈ (m.generateSynthesisPlan ord).conflicts, ∃ A B, c.systems = [A, B] ∧ A < B ∧
      c.compatibility = m.calculateCompatibilityScore A B ∧
      (c.severity = "High" ↔ m.calculateCompatibilityScore A B < 25) ∧
      (c.severity = "Medium" ↔ ¬ m.calculateCompatibilityScore A B < 25) := by
  rw [generateSynthesisPlan_conflicts]
  refine ⟨fun A B => ⟨?_, ?_⟩, m.conflicts_systems_nodup, fun c hc => ?_⟩
  · rintro ⟨c, hc, hs⟩
    obtain ⟨A', hA, B', hB, hAB, h⟩ := m.mem_conflicts.1 hc
    obtain ⟨hlt, rfl⟩ := m.conflictOf_eq_some h
    simp only [List.cons.injEq, and_true] at hs
    obtain ⟨rfl, rfl⟩ := hs
    exact ⟨hA, hB, hAB, hlt⟩
  · rintro ⟨hA, hB, hAB, hlt⟩
    have h : m.conflictOf A B = some ⟨[A, B], m.calculateCompatibilityScore A B,
        if m.calculateCompatibilityScore A B < 25 then "High" else "Medium"⟩ := by
      simp [conflictOf, hlt]
    exact ⟨_, m.mem_conflicts.2 ⟨A, hA, B, hB, hAB, h⟩, rfl⟩
  · obtain ⟨A, -, B, -, hAB, h⟩ := m.mem_conflicts.1 hc
    obtain ⟨-, rfl⟩ := m.conflictOf_eq_some h
    refine ⟨A, B, rfl, hAB, rfl, ?_, ?_⟩ <;> split_ifs with h25 <;> simp [h25]

/-! ## The unified interface of the plan -/

/-- Two texts that start differently differ; the three kinds of label start with `C`,
    `O` and `S`. -/
theorem ne_of_data_head? {a b : String} (h : a.data.head? ≠ b.data.head?) : a ≠ b :=
  fun e => h (congrArg (fun s : String => s.data.head?) e)

theorem optional_ne_core (rest : String) : "Optional - in " ++ rest ≠ "Core - present in most systems" :=
  ne_of_data_head? (by simp [String.data_append])

theorem specific_ne_core (S : String) : "System-specific - only in " ++ S ≠ "Core - present in most systems" :=
  ne_of_data_head? (by simp [String.data_append])

theorem specific_ne_optional (S rest : String) : "System-specific - only in " ++ S ≠ "Optional - in " ++ rest :=
  ne_of_data_head? (by simp [String.data_append])

theorem append_right_inj (p a b : String) : p ++ a = p ++ b ↔ a = b := by
  simp [String.ext_iff, String.data_append]

theorem unifiedLabel_eq_none {l : List String} : unifiedLabel l = none ↔ l = [] := by
  rcases l with _ | ⟨a, _ | ⟨b, _ | ⟨c, l⟩⟩⟩ <;> simp [unifiedLabel]

theorem unifiedLabel_eq_core {l : List String} :
    unifiedLabel l = some "Core - present in most systems" ↔ 3 ≤ l.length := by
  rcases l with _ | ⟨a, _ | ⟨b, _ | ⟨c, l⟩⟩⟩ <;> simp [unifiedLabel, optional_ne_core, specific_ne_core]

theorem unifiedLabel_eq_optional {l : List String} :
    (∃ rest, unifiedLabel l = some ("Optional - in " ++ rest)) ↔ l.length = 2 := by
  rcases l with _ | ⟨a, _ | ⟨b, _ | ⟨c, l⟩⟩⟩ <;>
    simp [unifiedLabel, (optional_ne_core _).symm, specific_ne_optional]

theorem unifiedLabel_pair (A B : String) :
    unifiedLabel [A, B] = some ("Optional - in " ++ A ++ ", " ++ B) := by
  simp [unifiedLabel, join, String.append_assoc]

theorem unifiedLabel_eq_specific {l : List String} {S : String} :
    unifiedLabel l = some ("System-specific - only in " ++ S) ↔ l = [S] := by
  rcases l with _ | ⟨a, _ | ⟨b, _ | ⟨c, l⟩⟩⟩ <;>
    simp [unifiedLabel, append_right_inj, (specific_ne_core _).symm, (specific_ne_optional _ _).symm]

/-- The loop of `compare_interfaces` over `self.systems` for one function `func`. -/
theorem foldl_compareRow (I : List String) (func : String) (v : String → String) :
    ∀ (ks : List String) (c : Dict String (Dict String String)) (g : String),
      (ks.foldl (fun c system => if system ∈ I then
          c.upsert func fun row => (row.getD .empty).upsert system fun _ => v system else c) c).get? g =
        if g = func ∧ ∃ s ∈ ks, s ∈ I then
          some ((ks.filter (· ∈ I)).foldl (fun row s => row.upsert s fun _ => v s) ((c.get? func).getD .empty))
        else c.get? g
  | [], c, g => by simp
  | x :: xs, c, g => by
    rw [List.foldl_cons, foldl_compareRow I func v xs]
    by_cases hx : x ∈ I
    · simp only [hx, if_true, Dict.get?_upsert]
      by_cases hg : g = func
      · subst hg
        by_cases h : ∃ s ∈ xs, s ∈ I
        · simp [h, hx, List.filter_cons]
        · have hnil : xs.filter (· ∈ I) = [] := List.filter_eq_nil_iff.2 fun a ha hI => h ⟨a, ha, by simpa using hI⟩
          simp [h, hx, List.filter_cons, hnil]
      · simp [hg]
    · simp [hx, List.filter_cons]

/-- The loop of `compare_interfaces` over the functions: each gets its row once. -/
theorem foldl_compare (I K : List String) (v : String → String → String) :
    ∀ (L : List String) (c : Dict String (Dict String String)), L.Nodup → (∀ f ∈ L, c.get? f = none) →
      ∀ g, (L.foldl (fun c func => K.foldl (fun c system => if system ∈ I then
          c.upsert func fun row => (row.getD .empty).upsert system fun _ => v func system else c) c) c).get? g =
        if g ∈ L ∧ ∃ s ∈ K, s ∈ I then
          some ((K.filter (· ∈ I)).foldl (fun row s => row.upsert s fun _ => v g s) .empty)
        else c.get? g
  | [], c, _, _, g => by simp
  | func :: L, c, hnd, hc, g => by
    obtain ⟨hf, hnd⟩ := List.nodup_cons.1 hnd
    rw [List.foldl_cons, foldl_compare I K v L _ hnd, foldl_compareRow, hc func (List.mem_cons_self _ _)]
    · by_cases hg : g = func
      · subst hg; simp [hf]
      · simp [hg]
    · intro f hfL
      rw [foldl_compareRow, if_neg (fun h : f = func ∧ _ => hf (h.1 ▸ hfL)), hc f (List.mem_cons_of_mem _ hfL)]

theorem mem_sigSet {s f : String} :
    f ∈ m.sigSet s ↔ ∃ i, (s, i) ∈ m.interfaces.items ∧ f ∈ (i.functionSignatures.map Dict.keys).getD [] := by
  simp only [Dict.mem_items_iff_get?]
  cases h : m.interfaces.get? s <;> simp [sigSet, h]

/-- `all_functions` of `compare_interfaces`. -/
theorem mem_foldl_allFunctions (f : String) : ∀ (l : List (String × Interface)) (acc : PySet String),
    f ∈ (l.foldl (fun acc si => ((si.2.functionSignatures.map Dict.keys).getD []).foldl PySet.add acc) acc).elems ↔
      f ∈ acc.elems ∨ ∃ si ∈ l, f ∈ (si.2.functionSignatures.map Dict.keys).getD []
  | [], acc => by simp
  | si :: l, acc => by
    rw [List.foldl_cons, mem_foldl_allFunctions f l, PySet.mem_foldl_add]
    simp [or_assoc]

/-- **`compare_interfaces`**: a function has a row iff some system's signatures name it
    and some registered system has an interface; the row marks each registered system
    that has an interface, in `self.systems` order, `'Present'` or `'Missing'`. -/
theorem compareInterfaces_get? (ord : SetOrder) (func : String) :
    ((m.compareInterfaces ord).get? func).map Dict.items =
      if (∃ s ∈ m.interfaces.keys, func ∈ m.sigSet s) ∧ ∃ s ∈ m.systems.keys, s ∈ m.interfaces.keys then
        some ((m.systems.keys.filter (· ∈ m.interfaces.keys)).map fun s =>
          (s, if func ∈ m.sigSet s then "Present" else "Missing"))
      else none := by
  have hall : (∃ si ∈ m.interfaces.items, func ∈ (si.2.functionSignatures.map Dict.keys).getD []) ↔
      ∃ s ∈ m.interfaces.keys, func ∈ m.sigSet s := by
    simp only [mem_sigSet, Dict.keys, List.mem_map]
    constructor
    · rintro ⟨⟨s, i⟩, hsi, hf⟩; exact ⟨s, ⟨_, hsi, rfl⟩, i, hsi, hf⟩
    · rintro ⟨s, -, i, hsi, hf⟩; exact ⟨_, hsi, hf⟩
  unfold compareInterfaces
  dsimp only
  rw [foldl_compare _ _ (fun func system => if func ∈ m.sigSet system then "Present" else "Missing") _ _
    ((ord.perm _).nodup_iff.2 (PySet.nodup _)) (by simp)]
  simp only [(ord.perm _).mem_iff, mem_foldl_allFunctions, hall, PySet.empty, List.not_mem_nil, false_or]
  split_ifs
  · rw [Option.map_some', Dict.items_foldl_upsert _ (m.systems.keys.filter (· ∈ m.interfaces.keys)) .empty
      (m.systems.nodup.filter _) (by simp)]
    rfl
  · rfl

/-- The `unified_interface` loop of `generate_synthesis_plan`: a function's label is
    what `unifiedLabel` makes of the systems its row marks `'Present'`. -/
theorem unifiedInterface_get? (ord : SetOrder) (func : String) :
    (m.generateSynthesisPlan ord).unifiedInterface.get? func =
      ((m.compareInterfaces ord).get? func).bind fun row =>
        unifiedLabel ((row.items.filter fun st => st.2 = "Present").map Prod.fst) := by
  unfold generateSynthesisPlan
  dsimp only
  rw [Dict.get?_foldl_items (fun row : Dict String String =>
    unifiedLabel ((row.items.filter fun st => st.2 = "Present").map Prod.fst)) _ ?_ _ _
    (m.compareInterfaces ord).nodup, Dict.get?_empty, Option.or_none]
  · rfl
  · intro acc kv k
    split
    · next h => simp [Dict.get?_upsert, h]
    · next h => by_cases hk : k = kv.1 <;> simp [h, hk]

/-- The systems whose signature sets hold `func`. -/
def holders (func : String) : Finset String :=
  (m.interfaces.keys.filter fun s => func ∈ m.sigSet s).toFinset

/-- `unified_interface` labels a function by the registered systems that hold it, in
    `self.systems` order. -/
theorem unifiedInterface_get?_eq (ord : SetOrder) (func : String) :
    (m.generateSynthesisPlan ord).unifiedInterface.get? func =
      unifiedLabel (m.systems.keys.filter (· ∈ m.holders func)) := by
  have hrow : ∀ s, s ∈ m.holders func ↔ s ∈ m.interfaces.keys ∧ func ∈ m.sigSet s := by
    simp [holders]
  have hmap : ∀ o : Option (Dict String String), (o.bind fun row =>
      unifiedLabel ((row.items.filter fun st => st.2 = "Present").map Prod.fst)) =
      (o.map Dict.items).bind fun l => unifiedLabel ((l.filter fun st => st.2 = "Present").map Prod.fst) := by
    intro o; cases o <;> rfl
  rw [unifiedInterface_get?, hmap, compareInterfaces_get?]
  split_ifs with h
  · simp only [Option.some_bind, List.filter_map, List.map_map, List.filter_filter]
    congr 1
    simp only [Function.comp_def, List.map_id']
    refine List.filter_congr fun s _ => ?_
    by_cases hs : func ∈ m.sigSet s <;> simp [hrow, hs]
  · rw [List.filter_eq_nil_iff.2 fun s hs hmem => ?_]
    · rfl
    · obtain ⟨hI, hf⟩ := (hrow s).1 (by simpa using hmem)
      exact h ⟨⟨s, hI, hf⟩, s, hs, hI⟩

/-- Three registered systems; two declare `mach_msg`, one has no signatures. -/
def sample : IPCMapper :=
  ⟨⟨[("CMU-Mach-MK83", "/src/CMU-Mach-MK83"), ("Lites", "/src/Lites-1.1/lites-1.1"),
      ("Mach4-i386", "/src/mach4-i386/mach4-i386")], by decide⟩,
    ⟨[("CMU-Mach-MK83", ⟨some ⟨[("mach_msg", "mach_msg(msg)")], by decide⟩⟩),
      ("Lites", ⟨some ⟨[("mach_msg", "mach_msg(m)"), ("task_create", "task_create(t)")], by decide⟩⟩),
      ("Mach4-i386", ⟨none⟩)], by decide⟩⟩

example : (sample.generateSynthesisPlan .insertion).unifiedInterface.items =
    [("mach_msg", "Optional - in CMU-Mach-MK83, Lites"), ("task_create", "System-specific - only in Lites")] := by
  decide

theorem filter_mem_toFinset {K : List String} {t : Finset String} (ht : ∀ s ∈ t, s ∈ K) :
    (K.filter (· ∈ t)).toFinset = t := by
  ext s
  simpa using fun h => ht s h

/-- **The unified interface of the plan.** When every interface is a registered system's,
    `unified_interface` has an entry exactly for each function that some system's
    signatures name; it is `'Core - present in most systems'` iff at least three systems
    hold the function, `'Optional - in A, B'` iff exactly two do, naming those two, and
    `'System-specific - only in S'` iff `S` is the only one. -/
theorem unifiedInterface_spec (ord : SetOrder) (h : ∀ s ∈ m.interfaces.keys, s ∈ m.systems.keys)
    (func : String) :
    let U := (m.generateSynthesisPlan ord).unifiedInterface
    (func ∈ U.keys ↔ (m.holders func).Nonempty) ∧
    (U.get? func = some "Core - present in most systems" ↔ 3 ≤ (m.holders func).card) ∧
    ((∃ rest, U.get? func = some ("Optional - in " ++ rest)) ↔ (m.holders func).card = 2) ∧
    ((m.holders func).card = 2 → ∃ A B, A ≠ B ∧ m.holders func = {A, B} ∧
      U.get? func = some ("Optional - in " ++ A ++ ", " ++ B)) ∧
    (∀ S, U.get? func = some ("System-specific - only in " ++ S) ↔ m.holders func = {S}) := by
  intro U
  have hU : U.get? func = unifiedLabel (m.systems.keys.filter (· ∈ m.holders func)) :=
    m.unifiedInterface_get?_eq ord func
  have hnd : (m.systems.keys.filter (· ∈ m.holders func)).Nodup := m.systems.nodup.filter _
  have hfin : (m.systems.keys.filter (· ∈ m.holders func)).toFinset = m.holders func :=
    filter_mem_toFinset fun s hs => h s (by simp only [holders, List.mem_toFinset, List.mem_filter] at hs; exact hs.1)
  generalize m.systems.keys.filter (· ∈ m.holders func) = l at hU hnd hfin
  rw [← hfin, List.toFinset_card_of_nodup hnd]
  refine ⟨?_, by rw [hU, unifiedLabel_eq_core], by rw [hU, unifiedLabel_eq_optional], fun h2 => ?_, fun S => ?_⟩
  · rw [← Dict.get?_isSome_iff, hU, List.toFinset_nonempty_iff, Option.isSome_iff_ne_none, Ne,
      unifiedLabel_eq_none]
  · obtain ⟨A, B, rfl⟩ := List.length_eq_two.1 h2
    exact ⟨A, B, by simpa using hnd, by simp, by rw [hU, unifiedLabel_pair]⟩
  · rw [hU, unifiedLabel_eq_specific]
    refine ⟨fun hS => by simp [hS], fun hS => ?_⟩
    have hlen := congrArg Finset.card hS
    rw [List.toFinset_card_of_nodup hnd, Finset.card_singleton] at hlen
    obtain ⟨x, rfl⟩ := List.length_eq_one.1 hlen
    simpa using hS

theorem unifiedInterface_spec_sample :
    (∀ s ∈ sample.interfaces.keys, s ∈ sample.systems.keys) ∧
    let U := (sample.generateSynthesisPlan .insertion).unifiedInterface
    ("mach_msg" ∈ U.keys ↔ (sample.holders "mach_msg").Nonempty) ∧
    (U.get? "mach_msg" = some "Core - present in most systems" ↔ 3 ≤ (sample.holders "mach_msg").card) ∧
    ((∃ rest, U.get? "mach_msg" = some ("Optional - in " ++ rest)) ↔ (sample.holders "mach_msg").card = 2) ∧
    ((sample.holders "mach_msg").card = 2 → ∃ A B, A ≠ B ∧ sample.holders "mach_msg" = {A, B} ∧
      U.get? "mach_msg" = some ("Optional - in " ++ A ++ ", " ++ B)) ∧
    (∀ S, U.get? "mach_msg" = some ("System-specific - only in " ++ S) ↔ sample.holders "mach_msg" = {S}) :=
  ⟨by decide, unifiedInterface_spec sample .insertion (by decide) "mach_msg"⟩

end IPCMapper

end MachSynth
