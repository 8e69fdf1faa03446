/-
  The parts of the Python runtime that `synthesizer.py` and `ipc_mapper.py` rely on.

  * `Dict`: a `dict`, its items in insertion order with pairwise distinct keys (the
    invariant is a field); `upsert` is `d[k] = f(d.get(k))`, `filterMap` a dict
    comprehension with a condition.
  * `PySet`: a `set` of distinct members, kept in insertion order, and `SetOrder`, the
    order in which CPython iterates a set of strings.  That order follows the strings'
    hashes, which change from one interpreter run to the next, so the model leaves it
    open: any permutation of the members.
  * `upper`, `lower`, `replace`, `join`, `strip`, `isIn`, `startsWith`: `str.upper`,
    `str.lower`, `str.replace` on one character, `str.join`, `str.strip`, `in` on
    strings and `str.startswith`.
  * `isWordChar`, `isSpaceChar`: the classes `\w` and `\s` of `re` on `str` patterns.
-/
import Mathlib.Data.List.Infix
import Mathlib.Data.List.Sort
import Mathlib.Data.String.Basic

namespace MachSynth

/-! ## Dictionaries -/

/-- A Python `dict`: its items in insertion order, with pairwise distinct keys. -/
structure Dict (α β : Type) where
  items : List (α × β)
  nodup : (items.map Prod.fst).Nodup

namespace Dict

variable {α β : Type}

/-- `{}` -/
def empty : Dict α β := ⟨[], List.nodup_nil⟩

/-- `d.keys()` -/
def keys (d : Dict α β) : List α := d.items.map Prod.fst

/-- `len(d)` -/
def size (d : Dict α β) : Nat := d.items.length

@[simp] theorem keys_empty : (empty : Dict α β).keys = [] := rfl

theorem map_fst_map {l : List (α × β)} {g : α × β → α × β} (hg : ∀ kv, (g kv).1 = kv.1) :
    (l.map g).map Prod.fst = l.map Prod.fst := by
  simp [Function.comp_def, hg]

theorem filterMap_keys_sublist {γ : Type} (f : α → β → Option γ) :
    ∀ l : List (α × β),
      ((l.filterMap fun kv => (f kv.1 kv.2).map (kv.1, ·)).map Prod.fst).Sublist (l.map Prod.fst)
  | [] => .slnil
  | kv :: l => by
    cases h : f kv.1 kv.2 <;>
      simp only [List.filterMap_cons, h, Option.map_none', Option.map_some', List.map_cons]
    · exact (filterMap_keys_sublist f l).cons _
    · exact (filterMap_keys_sublist f l).cons₂ _

/-- `{k: w for k, v in d.items() if (w := f(k, v)) is not None}`: the items that `f`
    keeps, in order. -/
def filterMap {γ : Type} (d : Dict α β) (f : α → β → Option γ) : Dict α γ :=
  ⟨d.items.filterMap fun kv => (f kv.1 kv.2).map (kv.1, ·), d.nodup.sublist (filterMap_keys_sublist f _)⟩

theorem mem_filterMap {γ : Type} {d : Dict α β} {f : α → β → Option γ} {k : α} {w : γ} :
    (k, w) ∈ (d.filterMap f).items ↔ ∃ v, (k, v) ∈ d.items ∧ f k v = some w := by
  simp only [filterMap, List.mem_filterMap, Option.map_eq_some', Prod.mk.injEq, Prod.exists]
  constructor
  · rintro ⟨k', v, hkv, w', hw, rfl, rfl⟩; exact ⟨v, hkv, hw⟩
  · rintro ⟨v, hkv, hw⟩; exact ⟨k, v, hkv, w, hw, rfl, rfl⟩

variable [DecidableEq α]

/-- `d.get(k)` -/
def get? (d : Dict α β) (k : α) : Option β := d.items.lookup k

/-- The item `kv` after `d[k] = g(d[k])`. -/
def updateAt (k : α) (g : β → β) (kv : α × β) : α × β := if kv.1 = k then (k, g kv.2) else kv

theorem updateAt_fst (k : α) (g : β → β) (kv : α × β) : (updateAt k g kv).1 = kv.1 := by
  unfold updateAt; split_ifs with h <;> simp [h]

/-- `d[k] = f(d.get(k))`: an existing key keeps its place, a new key goes last. -/
def upsert (d : Dict α β) (k : α) (f : Option β → β) : Dict α β :=
  if h : k ∈ d.keys then
    ⟨d.items.map (updateAt k fun b => f (some b)), by
      rw [map_fst_map (updateAt_fst k _)]; exact d.nodup⟩
  else
    ⟨d.items ++ [(k, f none)], by
      simpa [List.map_append] using d.nodup.concat h⟩

@[simp] theorem get?_empty (k : α) : (empty : Dict α β).get? k = none := rfl

theorem get?_isSome_iff (d : Dict α β) (k : α) : (d.get? k).isSome ↔ k ∈ d.keys := by
  simp [get?, keys]

theorem lookup_of_mem {l : List (α × β)} (nd : (l.map Prod.fst).Nodup) {k : α} {v : β}
    (h : (k, v) ∈ l) : l.lookup k = some v := by
  induction l with
  | nil => simp at h
  | cons kv l ih =>
    obtain ⟨a, b⟩ := kv
    simp only [List.map_cons, List.nodup_cons] at nd
    rcases List.mem_cons.1 h with h | h
    · obtain ⟨rfl, rfl⟩ := Prod.mk.inj h; simp [List.lookup_cons]
    · have hb : (k == a) = false :=
        beq_eq_false_iff_ne.2 fun e => nd.1 (e ▸ List.mem_map_of_mem Prod.fst h)
      simp [List.lookup_cons, hb, ih nd.2 h]

theorem get?_of_mem {d : Dict α β} {k : α} {v : β} (h : (k, v) ∈ d.items) : d.get? k = some v :=
  lookup_of_mem d.nodup h

theorem keys_upsert (d : Dict α β) (k : α) (f : Option β → β) :
    (d.upsert k f).keys = if k ∈ d.keys then d.keys else d.keys ++ [k] := by
  unfold upsert keys
  split_ifs with h
  · exact map_fst_map (updateAt_fst k _)
  · simp

theorem mem_keys_upsert {d : Dict α β} {k k' : α} {f : Option β → β} :
    k' ∈ (d.upsert k f).keys ↔ k' = k ∨ k' ∈ d.keys := by
  rw [keys_upsert]
  split_ifs with h
  · exact ⟨Or.inr, fun h' => h'.elim (fun e => e ▸ h) id⟩
  · simp [or_comm]

theorem lookup_map_updateAt (l : List (α × β)) (k k' : α) (g : β → β) :
    (l.map (updateAt k g)).lookup k' = if k' = k then (l.lookup k).map g else l.lookup k' := by
  induction l with
  | nil => split_ifs <;> rfl
  | cons kv l ih =>
    obtain ⟨a, b⟩ := kv
    by_cases ha : a = k
    · subst ha
      by_cases hk : k' = a
      · subst hk; simp only [List.map_cons, updateAt, if_true, List.lookup_cons, beq_self_eq_true, Option.map_some']
      · have hb : (k' == a) = false := by simpa using hk
        simpa [updateAt, List.lookup_cons, hb, hk] using ih
    · have hb : (k == a) = false := beq_eq_false_iff_ne.2 (Ne.symm ha)
      by_cases hk : k' = k
      · subst hk; simpa [updateAt, ha, List.lookup_cons, hb] using ih
      · simp only [List.map_cons, updateAt, ha, if_false, List.lookup_cons, ih, hk]

theorem get?_upsert (d : Dict α β) (k k' : α) (f : Option β → β) :
    (d.upsert k f).get? k' = if k' = k then some (f (d.get? k)) else d.get? k' := by
  have hs := get?_isSome_iff d k
  unfold upsert
  split_ifs with h hk hk
  · subst hk
    obtain ⟨v, hv⟩ := Option.isSome_iff_exists.1 (hs.2 h)
    simp only [get?] at hv ⊢
    simp [lookup_map_updateAt, hv]
  · simp [get?, lookup_map_updateAt, hk]
  · subst hk
    have : d.get? k' = none := Option.not_isSome_iff_eq_none.1 (mt hs.1 h)
    simp only [get?] at this ⊢
    simp [List.lookup_append, this]
  · have hb : (k' == k) = false := by simpa using hk
    simp [get?, List.lookup_append, List.lookup_cons, hb]

theorem mem_items_iff_get? {d : Dict α β} {k : α} {v : β} : (k, v) ∈ d.items ↔ d.get? k = some v := by
  refine ⟨get?_of_mem, fun h => ?_⟩
  obtain ⟨l₁, l₂, hl, -⟩ := List.lookup_eq_some_iff.1 h
  rw [hl]; simp

theorem items_upsert_of_not_mem {d : Dict α β} {k : α} (f : Option β → β) (h : k ∉ d.keys) :
    (d.upsert k f).items = d.items ++ [(k, f none)] := by
  simp [upsert, h]

/-- Writing fresh keys one after the other appends them in order. -/
theorem items_foldl_upsert (v : α → β) :
    ∀ (l : List α) (d : Dict α β), l.Nodup → (∀ k ∈ l, k ∉ d.keys) →
      (l.foldl (fun d k => d.upsert k fun _ => v k) d).items = d.items ++ l.map fun k => (k, v k)
  | [], d, _, _ => by simp
  | k :: l, d, hnd, hl => by
    obtain ⟨hk, hnd⟩ := List.nodup_cons.1 hnd
    rw [List.foldl_cons, items_foldl_upsert v l _ hnd, items_upsert_of_not_mem _ (hl k (List.mem_cons_self _ _))]
    · simp
    · intro k' hk'
      rw [mem_keys_upsert]
      rintro (rfl | h)
      · exact hk hk'
      · exact hl k' (List.mem_cons_of_mem _ hk') h

/-- Folding items into a dict with a step that changes at most the item's key, setting
    it to what `g` makes of the item's value when that is `some`: at each key the result
    holds what `g` makes of the key's value. -/
theorem get?_foldl_items {γ : Type} (g : β → Option γ) (step : Dict α γ → α × β → Dict α γ)
    (hstep : ∀ acc kv k, (step acc kv).get? k = if k = kv.1 then (g kv.2).or (acc.get? k) else acc.get? k) :
    ∀ (l : List (α × β)) (acc : Dict α γ), (l.map Prod.fst).Nodup → ∀ k,
      (l.foldl step acc).get? k = ((l.lookup k).bind g).or (acc.get? k)
  | [], acc, _, k => by simp
  | (a, b) :: l, acc, hnd, k => by
    obtain ⟨ha, hnd⟩ := List.nodup_cons.1 hnd
    rw [List.foldl_cons, get?_foldl_items g step hstep l _ hnd, hstep]
    by_cases hk : k = a
    · subst hk
      have : l.lookup k = none := List.lookup_eq_none_iff.2 fun p hp =>
        bne_iff_ne.2 fun e => ha (by simpa [e] using List.mem_map_of_mem Prod.fst hp)
      simp [List.lookup_cons, this]
    · have hb : (k == a) = false := by simpa using hk
      simp [List.lookup_cons, hb, hk]

end Dict

/-! ## Sets and their iteration order -/

/-- A Python `set`, its members kept in insertion order. -/
structure PySet (α : Type) where
  elems : List α
  nodup : elems.Nodup

namespace PySet

variable {α : Type} [DecidableEq α]

/-- `set()` -/
def empty : PySet α := ⟨[], List.nodup_nil⟩

/-- `s.add(a)` -/
def add (s : PySet α) (a : α) : PySet α :=
  if h : a ∈ s.elems then s else ⟨s.elems ++ [a], by simpa using s.nodup.concat h⟩

theorem elems_add (s : PySet α) (a : α) :
    (s.add a).elems = if a ∈ s.elems then s.elems else s.elems ++ [a] := by
  unfold add; split_ifs <;> rfl

theorem mem_add {a b : α} {s : PySet α} : a ∈ (s.add b).elems ↔ a ∈ s.elems ∨ a = b := by
  rw [elems_add]
  split_ifs with h
  · exact ⟨.inl, fun h' => h'.elim id (· ▸ h)⟩
  · simp

theorem mem_foldl_add {a : α} : ∀ (l : List α) (s : PySet α),
    a ∈ (l.foldl add s).elems ↔ a ∈ s.elems ∨ a ∈ l
  | [], s => by simp
  | b :: l, s => by
    rw [List.foldl_cons, mem_foldl_add l, elems_add]
    split_ifs with h
    · by_cases hb : a = b
      · subst hb; simp [h]
      · simp [hb]
    · simp [or_assoc]

end PySet

/-- The order in which CPython iterates a set of strings, as a function of the members
    in insertion order.  It is fixed by the strings' hashes, which hash randomization
    changes between runs; all the model keeps is that every member comes once. -/
structure SetOrder where
  order : List String → List String
  perm : ∀ l, (order l).Perm l

/-- Iteration in insertion order. -/
def SetOrder.insertion : SetOrder := ⟨id, fun _ => List.Perm.refl _⟩

/-- Iteration in reverse insertion order. -/
def SetOrder.reversed : SetOrder := ⟨List.reverse, List.reverse_perm⟩

/-! ## Strings -/

/-- `str.upper` on one character.  Exact up to U+00FF, the range that Latin-1 decoding
    yields (`ß` becomes `SS`; `µ` and `ÿ` leave Latin-1); above it the character is
    kept, as the model has no Unicode case table. -/
def upperChar (c : Char) : List Char :=
  let n := c.toNat
  if 0x61 ≤ n ∧ n ≤ 0x7A then [Char.ofNat (n - 32)]
  else if n = 0xB5 then [Char.ofNat 0x39C]
  else if n = 0xDF then ['S', 'S']
  else if n = 0xFF then [Char.ofNat 0x178]
  else if 0xE0 ≤ n ∧ n ≤ 0xFE ∧ n ≠ 0xF7 then [Char.ofNat (n - 32)]
  else [c]

/-- `s.upper()` -/
def upper (s : String) : String := ⟨s.data.flatMap upperChar⟩

/-- A text of code points up to U+00FF, where `upperChar`, `lowerChar` and `isWordChar`
    are exact. -/
def Latin1 (s : String) : Prop := ∀ c ∈ s.data, c.toNat < 256

/-- `s.replace(a, b)` for one character `a` and one character `b`. -/
def replace (s : String) (a b : Char) : String := ⟨s.data.map fun c => if c = a then b else c⟩

/-- `sep.join(xs)` -/
def join (sep : String) : List String → String
  | [] => ""
  | [x] => x
  | x :: y :: xs => x ++ sep ++ join sep (y :: xs)

/-- A character that neither the separator nor the parts contain is not in the join. -/
theorem not_mem_join {x : Char} {sep : String} (hsep : x ∉ sep.data) :
    ∀ {l : List String}, (∀ s ∈ l, x ∉ s.data) → x ∉ (join sep l).data
  | [], _ => by simp [join]
  | [s], h => by simpa [join] using h s (by simp)
  | s :: t :: l, h => by
    simp only [join, String.data_append, List.mem_append, not_or]
    exact ⟨⟨h s (by simp), hsep⟩, not_mem_join hsep fun u hu => h u (List.mem_cons_of_mem _ hu)⟩

/-- `\w` of `re` on a `str` pattern: `_` and what `str.isalnum` accepts.  Exact up to
    U+00FF; above it no character counts (no Unicode database in the model). -/
def isWordChar (c : Char) : Bool :=
  let n := c.toNat
  c.isAlphanum || c = '_' || n = 0xAA || n = 0xB2 || n = 0xB3 || n = 0xB5 || n = 0xB9 ||
    n = 0xBA || (0xBC ≤ n && n ≤ 0xBE) || (0xC0 ≤ n && n ≤ 0xFF && n ≠ 0xD7 && n ≠ 0xF7)

/-- `\s` of `re` on a `str` pattern: `str.isspace`, exact for every code point. -/
def isSpaceChar (c : Char) : Bool :=
  let n := c.toNat
  (0x09 ≤ n && n ≤ 0x0D) || (0x1C ≤ n && n ≤ 0x20) || n = 0x85 || n = 0xA0 || n = 0x1680 ||
    (0x2000 ≤ n && n ≤ 0x200A) || n = 0x2028 || n = 0x2029 || n = 0x202F || n = 0x205F ||
    n = 0x3000

/-- `str.lower` on one character, exact up to U+00FF like `upperChar`. -/
def lowerChar (c : Char) : Char :=
  let n := c.toNat
  if (0x41 ≤ n ∧ n ≤ 0x5A) ∨ (0xC0 ≤ n ∧ n ≤ 0xDE ∧ n ≠ 0xD7) then Char.ofNat (n + 32) else c

/-- `s.lower()` -/
def lower (s : String) : String := ⟨s.data.map lowerChar⟩

/-- `a in s` for strings. -/
def isIn (a s : String) : Bool := decide (a.data <:+: s.data)

/-- `s.startswith(p)` -/
def startsWith (p s : String) : Bool := decide (p.data <+: s.data)

/-- `s.strip()`: `s` without the whitespace at either end. -/
def strip (s : String) : String :=
  ⟨((s.data.dropWhile isSpaceChar).reverse.dropWhile isSpaceChar).reverse⟩

/-! ## Exceptions -/

theorem bind_eq_ok {ε α β : Type} {x : Except ε α} {f : α → Except ε β} {b : β} :
    x >>= f = .ok b ↔ ∃ a, x = .ok a ∧ f a = .ok b := by
  cases x <;> simp [bind, Except.bind]

/-- A loop whose every iteration, from a state with `P`, returns a state with `P`, returns
    one. -/
theorem foldlM_inv {ε α β : Type} (P : β → Prop) (f : β → α → Except ε β) :
    ∀ (l : List α), (∀ a ∈ l, ∀ b, P b → ∃ b', f b a = .ok b' ∧ P b') →
      ∀ b, P b → ∃ b', l.foldlM f b = .ok b' ∧ P b'
  | [], _, b, hb => ⟨b, rfl, hb⟩
  | a :: l, hf, b, hb => by
    obtain ⟨b₁, h₁, hb₁⟩ := hf a (List.mem_cons_self _ _) b hb
    obtain ⟨b', h', hb'⟩ := foldlM_inv P f l (fun a ha => hf a (List.mem_cons_of_mem _ ha)) b₁ hb₁
    exact ⟨b', bind_eq_ok.2 ⟨b₁, h₁, h'⟩, hb'⟩

/-! ## Subprocesses -/

/-- `subprocess.run(cmd, shell=True, capture_output=True, text=True).stdout`, from the
    lines the command prints, each decoded as UTF-8: `none` is a line that does not
    decode, and decoding the output then raises `UnicodeDecodeError`. -/
def stdoutText (lines : List (Option String)) : Except String String :=
  match lines.mapM id with
  | some ls => .ok (String.join (ls.map (· ++ "\n")))
  | none => .error "UnicodeDecodeError"

theorem mapM_id_isSome {α : Type} : ∀ {l : List (Option α)}, (∀ x ∈ l, x.isSome) → (l.mapM id).isSome
  | [], _ => rfl
  | x :: l, h => by
    obtain ⟨a, rfl⟩ := Option.isSome_iff_exists.1 (h x (List.mem_cons_self _ _))
    obtain ⟨as, has⟩ := Option.isSome_iff_exists.1 (mapM_id_isSome fun y hy => h y (List.mem_cons_of_mem _ hy))
    rw [List.mapM_cons, has]; rfl

/-- Output whose every line decodes is read. -/
theorem stdoutText_ok {lines : List (Option String)} (h : ∀ l ∈ lines, l.isSome) :
    ∃ out, stdoutText lines = .ok out := by
  obtain ⟨ls, hls⟩ := Option.isSome_iff_exists.1 (mapM_id_isSome h)
  exact ⟨_, by rw [stdoutText, hls]⟩

end MachSynth
