/-
  The merged tree that `synthesizer.py` writes: the directories and files below
  `merged/`, and the file-system calls the synthesizer makes on it.

  * `Tree`: the directories and the text of each file, by path (`[]` is `merged`
    itself).  The ancestors of a directory are directories, and a file sits in a
    directory and is not one; the invariant is a field, so every call keeps it;
  * `Tree.mkdir` is `Path.mkdir(parents=True, exist_ok=True)`, `Tree.write` is
    `open(path, 'w').write(text)` and `Tree.copy2` is `shutil.copy2` from a file of a
    source tree; each returns the `OSError` Python raises, by its class and the path;
  * `Changes D S t t'`: `t'` adds directories only in `D` and changes files only in
    `S`; `mkdir_changes`, `write_changes`, `copy2_changes` give it for each call, and
    `Changes.foldl`, `Changes.foldlM` for a loop of calls; `write_eq_error_of_parent`,
    `mkdir_ok`, `write_ok`: when a call raises;
  * `entries` and `filesBelow`: `os.listdir` and `rglob` on the tree;
    `size_eq_sum_filesBelow`: every file is below one directory right in `merged`, or
    right in `merged` itself.
-/
import MachSynth.Python
import Mathlib.Data.List.Dedup
import Mathlib.Algebra.Order.Ring.Nat

namespace MachSynth

/-- The merged tree: its directories, and its files with their text, by their path below
    `merged/` (`[]` is `merged` itself). -/
structure Tree where
  dirs : List (List String)
  files : Dict (List String) String
  /-- The ancestors of a directory are directories. -/
  dirs_prefix : ∀ d ∈ dirs, ∀ e, e <+: d → e ∈ dirs
  /-- A file sits in a directory and is not one. -/
  files_parent : ∀ p ∈ files.keys, p.dropLast ∈ dirs ∧ p ∉ dirs

/-- The message of the `OSError` of class `cls` that a call on the path `p` raises. -/
def osError (cls : String) (p : List String) : String := cls ++ ": " ++ join "/" ("merged" :: p)

/-- Two tests that no element passes together count, added, the elements that pass
    either. -/
theorem countP_add_countP {α : Type} {p q : α → Bool} :
    ∀ {l : List α}, (∀ a ∈ l, ¬(p a ∧ q a)) → l.countP p + l.countP q = l.countP fun a => p a || q a
  | [], _ => rfl
  | a :: l, h => by
    have ih := countP_add_countP fun b hb => h b (List.mem_cons_of_mem _ hb)
    have ha := h a (List.mem_cons_self _ _)
    simp only [List.countP_cons, ← ih]
    cases hp : p a <;> cases hq : q a <;> simp_all <;> omega

/-- `os.path.basename(path)` -/
def basename (path : String) : String := (path.split (· = '/')).getLastD ""

namespace Tree

/-- A `merged` directory that does not exist yet. -/
def empty : Tree := ⟨[], .empty, by simp, by simp [Dict.keys, Dict.empty]⟩

theorem ne_nil_of_mem_files {t : Tree} {p : List String} (h : p ∈ t.files.keys) : p ≠ [] := by
  rintro rfl
  exact (t.files_parent _ h).2 (t.files_parent _ h).1

theorem not_mem_files_of_mem_dirs {t : Tree} {p : List String} (h : p ∈ t.dirs) : p ∉ t.files.keys :=
  fun hf => (t.files_parent p hf).2 h

/-! ## `mkdir` -/

/-- `Path(p).mkdir(parents=True, exist_ok=True)`: the missing directories down to `p` are
    made; a file at `p` or above it raises. -/
def mkdir (t : Tree) (p : List String) : Except String Tree :=
  if p ∈ t.files.keys then .error (osError "FileExistsError" p)
  else if h : ∃ q ∈ p.inits, q ∈ t.files.keys then .error (osError "NotADirectoryError" p)
  else .ok
    { dirs := t.dirs ++ p.inits.filter (· ∉ t.dirs)
      files := t.files
      dirs_prefix := by
        simp only [List.mem_append, List.mem_filter, List.mem_inits, decide_eq_true_eq]
        rintro d (hd | ⟨hd, -⟩) e he
        · exact .inl (t.dirs_prefix d hd e he)
        · exact (em (e ∈ t.dirs)).imp_right fun h' => ⟨he.trans hd, h'⟩
      files_parent := fun q hq => by
        refine ⟨List.mem_append_left _ (t.files_parent q hq).1, ?_⟩
        simp only [List.mem_append, List.mem_filter, not_or, not_and]
        exact ⟨(t.files_parent q hq).2, fun hi => absurd ⟨q, hi, hq⟩ h⟩ }

theorem mkdir_ok {t : Tree} {p : List String} (h : ∀ q, q <+: p → q ∉ t.files.keys) :
    ∃ t', t.mkdir p = .ok t' := by
  have h' : ¬∃ q ∈ p.inits, q ∈ t.files.keys := fun ⟨q, hq, hf⟩ => h q ((List.mem_inits _ _).1 hq) hf
  unfold mkdir
  rw [if_neg (h p (List.prefix_refl p)), dif_neg h']
  exact ⟨_, rfl⟩

theorem files_mkdir {t t' : Tree} {p : List String} (h : t.mkdir p = .ok t') : t'.files = t.files := by
  unfold mkdir at h
  split_ifs at h
  cases h; rfl

theorem mem_dirs_mkdir {t t' : Tree} {p d : List String} (h : t.mkdir p = .ok t') :
    d ∈ t'.dirs ↔ d ∈ t.dirs ∨ d <+: p := by
  unfold mkdir at h
  split_ifs at h
  cases h
  simp only [List.mem_append, List.mem_filter, List.mem_inits, decide_eq_true_eq]
  exact ⟨fun h => h.imp_right And.left, fun h => (em (d ∈ t.dirs)).imp_right fun h' => ⟨h.resolve_left h', h'⟩⟩

/-- The directory `mkdir` made is there, with its ancestors. -/
theorem mem_dirs_mkdir_self {t t' : Tree} {p : List String} (h : t.mkdir p = .ok t') : p ∈ t'.dirs :=
  (mem_dirs_mkdir h).2 (.inr (List.prefix_refl p))

theorem mkdir_error_of_mem {t : Tree} {p q : List String} (hq : q <+: p) (hf : q ∈ t.files.keys) :
    ∃ e, t.mkdir p = .error e := by
  unfold mkdir
  split_ifs with h₁ h₂
  · exact ⟨_, rfl⟩
  · exact ⟨_, rfl⟩
  · exact absurd ⟨q, (List.mem_inits _ _).2 hq, hf⟩ h₂

/-! ## `open(p, 'w').write(text)` -/

/-- `open(p, 'w').write(text)`: the file `p` now holds `text`.  It raises when `p` is a
    directory or its directory does not exist. -/
def write (t : Tree) (p : List String) (text : String) : Except String Tree :=
  if h : p.dropLast ∈ t.dirs ∧ p ∉ t.dirs then .ok
    { dirs := t.dirs
      files := t.files.upsert p fun _ => text
      dirs_prefix := t.dirs_prefix
      files_parent := fun q hq => by
        rcases Dict.mem_keys_upsert.1 hq with rfl | hq
        · exact h
        · exact t.files_parent q hq }
  else if p ∈ t.dirs then .error (osError "IsADirectoryError" p)
  else if ∃ q ∈ p.dropLast.inits, q ∈ t.files.keys then .error (osError "NotADirectoryError" p)
  else .error (osError "FileNotFoundError" p)

theorem write_ok {t : Tree} {p : List String} (text : String) (h₁ : p.dropLast ∈ t.dirs) (h₂ : p ∉ t.dirs) :
    ∃ t', t.write p text = .ok t' := by
  unfold write
  rw [dif_pos ⟨h₁, h₂⟩]
  exact ⟨_, rfl⟩

theorem write_eq_ok {t t' : Tree} {p : List String} {text : String} (h : t.write p text = .ok t') :
    p.dropLast ∈ t.dirs ∧ p ∉ t.dirs ∧ t'.dirs = t.dirs ∧ t'.files = t.files.upsert p fun _ => text := by
  unfold write at h
  split_ifs at h with h'
  cases h
  exact ⟨h'.1, h'.2, rfl, rfl⟩

/-- Writing a file whose directory does not exist raises. -/
theorem write_eq_error_of_parent {t : Tree} {p : List String} (text : String) (h : p.dropLast ∉ t.dirs) :
    ∃ e, t.write p text = .error e := by
  unfold write
  rw [dif_neg fun h' => h h'.1]
  split_ifs <;> exact ⟨_, rfl⟩

theorem get?_write {t t' : Tree} {p : List String} {text : String} (h : t.write p text = .ok t')
    (q : List String) : t'.files.get? q = if q = p then some text else t.files.get? q := by
  rw [(write_eq_ok h).2.2.2, Dict.get?_upsert]

theorem mem_files_write {t t' : Tree} {p q : List String} {text : String} (h : t.write p text = .ok t') :
    q ∈ t'.files.keys ↔ q = p ∨ q ∈ t.files.keys := by
  rw [(write_eq_ok h).2.2.2, Dict.mem_keys_upsert]

/-! ## `shutil.copy2` -/

/-- `shutil.copy2(src, dst)` for a file `src` of a source tree, read through `fs`: into
    `dst/basename(src)` when `dst` is a directory. -/
def copy2 (fs : String → Option String) (t : Tree) (src : String) (dst : List String) :
    Except String Tree :=
  match fs src with
  | none => .error ("FileNotFoundError: " ++ src)
  | some text => t.write (if dst ∈ t.dirs then dst ++ [basename src] else dst) text

/-! ## Frames -/

/-- `t'` keeps the directories of `t` and makes new ones only in `D`, and has the files of
    `t` at every path outside `S`. -/
structure Changes (D S : List String → Prop) (t t' : Tree) : Prop where
  dirs_mono : ∀ d ∈ t.dirs, d ∈ t'.dirs
  dirs_new : ∀ d ∈ t'.dirs, d ∈ t.dirs ∨ D d
  files : ∀ q, ¬S q → t'.files.get? q = t.files.get? q

theorem Changes.refl (D S : List String → Prop) (t : Tree) : Changes D S t t :=
  ⟨fun _ => id, fun _ => .inl, fun _ _ => rfl⟩

theorem Changes.trans {D S : List String → Prop} {t₁ t₂ t₃ : Tree} (h₁ : Changes D S t₁ t₂)
    (h₂ : Changes D S t₂ t₃) : Changes D S t₁ t₃ :=
  ⟨fun d hd => h₂.dirs_mono d (h₁.dirs_mono d hd),
    fun d hd => (h₂.dirs_new d hd).elim (h₁.dirs_new d) .inr,
    fun q hq => (h₂.files q hq).trans (h₁.files q hq)⟩

theorem Changes.mono {D S D' S' : List String → Prop} {t t' : Tree} (h : Changes D S t t')
    (hD : ∀ d, D d → D' d) (hS : ∀ q, S q → S' q) : Changes D' S' t t' :=
  ⟨h.dirs_mono, fun d hd => (h.dirs_new d hd).imp_right (hD d), fun q hq => h.files q fun h => hq (hS q h)⟩

theorem Changes.mem_files {D S : List String → Prop} {t t' : Tree} {q : List String}
    (h : Changes D S t t') (hq : q ∈ t'.files.keys) : q ∈ t.files.keys ∨ S q :=
  (em (S q)).symm.imp_left fun hS =>
    (Dict.get?_isSome_iff _ _).1 (h.files q hS ▸ (Dict.get?_isSome_iff _ _).2 hq)

/-- A loop whose every iteration changes the tree within `D` and `S` changes it within
    them. -/
theorem Changes.foldl {α : Type} {D S : List String → Prop} (f : Tree → α → Tree)
    (hf : ∀ t a, Changes D S t (f t a)) : ∀ (l : List α) (t : Tree), Changes D S t (l.foldl f t)
  | [], t => .refl D S t
  | a :: l, t => (hf t a).trans (Changes.foldl f hf l _)

/-- The same for a loop that may raise. -/
theorem Changes.foldlM {α : Type} {D S : List String → Prop} (f : Tree → α → Except String Tree) :
    ∀ (l : List α), (∀ a ∈ l, ∀ t t', f t a = .ok t' → Changes D S t t') →
      ∀ t t', l.foldlM f t = .ok t' → Changes D S t t'
  | [], _, t, t', h => by cases h; exact .refl D S t
  | a :: l, hf, t, t', h => by
    obtain ⟨t₁, h₁, h₂⟩ := bind_eq_ok.1 h
    exact (hf a (List.mem_cons_self _ _) t t₁ h₁).trans
      (Changes.foldlM f l (fun b hb => hf b (List.mem_cons_of_mem _ hb)) t₁ t' h₂)

theorem mkdir_changes {t t' : Tree} {p : List String} (h : t.mkdir p = .ok t') :
    Changes (· <+: p) (fun _ => False) t t' :=
  ⟨fun _ hd => (mem_dirs_mkdir h).2 (.inl hd), fun _ hd => (mem_dirs_mkdir h).1 hd,
    fun q _ => by rw [files_mkdir h]⟩

theorem write_changes {t t' : Tree} {p : List String} {text : String} (h : t.write p text = .ok t') :
    Changes (fun _ => False) (· = p) t t' := by
  obtain ⟨-, -, hd, -⟩ := write_eq_ok h
  exact ⟨fun _ => by rw [hd]; exact id, fun _ => by rw [hd]; exact .inl, fun q hq => by rw [get?_write h, if_neg hq]⟩

/-- A copy makes no directory and writes below its destination only. -/
theorem copy2_changes {fs : String → Option String} {t t' : Tree} {src : String} {dst : List String}
    (h : t.copy2 fs src dst = .ok t') : Changes (fun _ => False) (dst <+: ·) t t' := by
  unfold copy2 at h
  split at h
  · cases h
  · refine (write_changes h).mono (fun _ => id) fun q hq => ?_
    subst hq
    split_ifs
    · exact List.prefix_append _ _
    · exact List.prefix_refl _

theorem copy2_dirs {fs : String → Option String} {t t' : Tree} {src : String} {dst : List String}
    (h : t.copy2 fs src dst = .ok t') : t'.dirs = t.dirs := by
  unfold copy2 at h
  split at h
  · cases h
  · exact (write_eq_ok h).2.2.1

/-- `shutil.copy2` to a path that is not a directory, in an existing directory, writes
    there what it could read; it raises only when it could read nothing. -/
theorem get?_copy2 (fs : String → Option String) {t : Tree} {src : String} {dst : List String}
    (hpar : dst.dropLast ∈ t.dirs) (hd : dst ∉ t.dirs) :
    ((t.copy2 fs src dst).toOption.getD t).files.get? dst = (fs src).or (t.files.get? dst) := by
  cases hfs : fs src with
  | none => simp [copy2, hfs, Except.toOption]
  | some text =>
    obtain ⟨t', h⟩ := write_ok text hpar hd
    simp [copy2, hfs, hd, h, Except.toOption, get?_write h]

/-! ## Listings -/

/-- `os.listdir(merged)`: the names of the directories and files right below `merged`. -/
def entries (t : Tree) : List String :=
  ((t.dirs ++ t.files.keys).filterMap fun p => match p with | [e] => some e | _ => none).dedup

/-- `sum(1 for _ in (merged / name).rglob('*') if _.is_file())`: the number of files below
    the directory `name` of `merged`. -/
def filesBelow (t : Tree) (name : String) : Nat := (t.files.keys.filter fun p => [name] <+: p).length

theorem mem_entries {t : Tree} {e : String} : e ∈ t.entries ↔ [e] ∈ t.dirs ∨ [e] ∈ t.files.keys := by
  simp only [entries, List.mem_dedup, List.mem_filterMap, List.mem_append]
  constructor
  · rintro ⟨p, hp, he⟩
    match p, he with
    | [_], rfl => exact hp
  · exact fun h => ⟨[e], h, rfl⟩

/-- The files below the directories `D` of `merged`, counted directory by directory:
    a file is below one of them at most. -/
theorem sum_filesBelow (t : Tree) : ∀ {D : List String}, D.Nodup →
    (D.map t.filesBelow).sum = t.files.keys.countP fun p => ∃ e ∈ D, [e] <+: p
  | [], _ => by simp
  | e :: D, hD => by
    obtain ⟨he, hD⟩ := List.nodup_cons.1 hD
    rw [List.map_cons, List.sum_cons, sum_filesBelow t hD, filesBelow, ← List.countP_eq_length_filter,
      countP_add_countP]
    · exact List.countP_congr fun p _ => by simp
    · rintro p - ⟨h₁, h₂⟩
      obtain ⟨r, rfl⟩ := of_decide_eq_true h₁
      obtain ⟨e', he', h₂⟩ := of_decide_eq_true h₂
      obtain ⟨rfl, -⟩ := List.cons_prefix_cons.1 h₂
      exact he he'

/-- Every file is counted once: below the directory of `merged` its path starts with,
    or right in `merged`. -/
theorem size_eq_sum_filesBelow (t : Tree) {D : List String} (hD : D.Nodup) (hmem : ∀ e, e ∈ D ↔ [e] ∈ t.dirs) :
    t.files.size = (D.map t.filesBelow).sum + t.files.keys.countP (·.length = 1) := by
  rw [sum_filesBelow t hD, Dict.size, ← List.length_map _ Prod.fst, ← Dict.keys,
    List.length_eq_countP_add_countP (fun p : List String => p.length = 1), add_comm]
  congr 1
  refine List.countP_congr fun p hp => ?_
  simp only [Bool.not_eq_true, decide_eq_false_iff_not, decide_eq_true_eq]
  constructor
  · intro h
    match p, ne_nil_of_mem_files hp, h with
    | x :: y :: r, _, _ => exact ⟨x, (hmem x).2 (t.dirs_prefix _ (t.files_parent _ hp).1 [x] (by simp)), by simp⟩
  · rintro ⟨e, he, r, rfl⟩ h1
    obtain rfl : r = [] := List.length_eq_zero.1 (by simpa using h1)
    exact (t.files_parent _ hp).2 ((hmem e).1 he)

end Tree

end MachSynth
