/-
  The driver of `synthesize_content`: `OSSynthesizer.merge_headers` (synthesizer.py)
  looks each header of a fixed list up in every system with `find`
  (`find_similar_files`), and `intelligent_merge` reads the first file found in each
  system and writes what `synthesize_content` makes of the texts it could read.

  * `find` and the file system are parameters: `find path name` is the lines the
    `find` command prints, each decoded (`none` for one that is not UTF-8, on which
    `subprocess.run(text=True)` raises), `fs path` the text of a file, `none` when
    `open` fails;
  * `intelligentMerge_spec`: the merge returns before `synthesize_content` when it
    could read no source, so the `IndexError` of an empty `contents` never surfaces;
    otherwise it writes what `synthesize_content` makes of the sources it read;
  * `mergeHeader_eq`: an iteration of `merge_headers` that returns writes nothing or a
    text at its header's output path, and `mergeHeader_ok`: it returns when `find`
    prints only UTF-8.
-/
import MachSynth.Synthesizer

namespace MachSynth

/-! ## The driver -/

/-- The headers that `merge_headers` merges. -/
def headers : List String :=
  ["mach.h", "mach_types.h", "mach_interface.h", "task.h", "thread.h", "vm_map.h", "port.h",
    "message.h", "syscall.h", "errno.h"]

/-- `find_similar_files(filename)`: for each system, in `self.systems` order, the lines
    that `find` prints for it, when it prints something. -/
def findSimilarFiles (systems : Dict String String) (find : String → String → List (Option String))
    (filename : String) : Except String (Dict String (List String)) :=
  systems.items.foldlM (fun similar sp => stdoutText (find sp.2 filename) >>= fun out =>
    .ok (if out = "" then similar else similar.upsert sp.1 fun _ => (strip out).split (· = '\n'))) .empty

/-- The sources `intelligent_merge` reads: for each system whose first file is named,
    the text of that file when it can be read, in `file_paths` order. -/
def readContents (fs : String → Option String) (filePaths : Dict String (List String)) :
    Dict String String :=
  filePaths.filterMap fun _ paths =>
    match paths with
    | p :: _ => if p = "" then none else fs p
    | [] => none

/-- The directory, below the merged tree, that `intelligent_merge` writes `filename` to. -/
def outputDir (filename : String) : List String :=
  if isIn ".h" filename then ["include", if isIn "mach" (lower filename) then "mach" else "sys"]
  else ["kernel"]

/-- `intelligent_merge(filename, file_paths)`: the file it writes, by its path below the
    merged tree and its text; `none` when it could read no source. -/
def intelligentMerge (ord : SetOrder) (fs : String → Option String) (filename : String)
    (filePaths : Dict String (List String)) : Except String (Option (List String × String)) :=
  if (readContents fs filePaths).size = 0 then .ok none
  else (synthesizeContent ord filename (readContents fs filePaths)).map
    fun merged => some (outputDir filename ++ [filename], merged)

/-- The iteration of `merge_headers()` for `header`: what it writes. -/
def mergeHeader (ord : SetOrder) (systems : Dict String String)
    (find : String → String → List (Option String)) (fs : String → Option String) (header : String) :
    Except String (Option (List String × String)) :=
  findSimilarFiles systems find header >>= fun similar =>
    if similar.size = 0 then .ok none else intelligentMerge ord fs header similar

/-! ## The `IndexError` never surfaces -/

theorem synthesizeContent_ok (ord : SetOrder) (filename : String) {contents : Dict String String}
    (h : contents.size ≠ 0) : ∃ text, synthesizeContent ord filename contents = .ok text := by
  unfold synthesizeContent
  split
  · next hc => simp [Dict.size, hc] at h
  · exact ⟨_, rfl⟩
  · exact ⟨_, rfl⟩

/-- What `intelligent_merge` reads: a source for each system whose first file is named
    and can be read. -/
theorem mem_readContents {fs : String → Option String} {filePaths : Dict String (List String)}
    {system text : String} :
    (system, text) ∈ (readContents fs filePaths).items ↔
      ∃ p ps, (system, p :: ps) ∈ filePaths.items ∧ p ≠ "" ∧ fs p = some text := by
  rw [readContents, Dict.mem_filterMap]
  constructor
  · rintro ⟨_ | ⟨p, ps⟩, h, hp⟩
    · simp at hp
    · by_cases he : p = "" <;> simp only [he, if_true, if_false, reduceCtorEq] at hp
      exact ⟨p, ps, h, he, hp⟩
  · rintro ⟨p, ps, h, he, hp⟩
    exact ⟨p :: ps, h, by simp [he, hp]⟩

/-- **The merge never raises.**  `intelligent_merge` returns before `synthesize_content`
    when it could read no source; otherwise it writes, below the merged tree, what
    `synthesize_content` makes of the sources it read. -/
theorem intelligentMerge_spec (ord : SetOrder) (fs : String → Option String) (filename : String)
    (filePaths : Dict String (List String)) :
    ((readContents fs filePaths).size = 0 ∧ intelligentMerge ord fs filename filePaths = .ok none) ∨
      ∃ text, synthesizeContent ord filename (readContents fs filePaths) = .ok text ∧
        intelligentMerge ord fs filename filePaths = .ok (some (outputDir filename ++ [filename], text)) := by
  unfold intelligentMerge
  split_ifs with h
  · exact .inl ⟨h, rfl⟩
  · obtain ⟨text, ht⟩ := synthesizeContent_ok ord filename h
    exact .inr ⟨text, ht, by rw [ht]; rfl⟩

/-- An iteration of `merge_headers` that returns writes nothing, or a text at the output
    path of its header. -/
theorem mergeHeader_eq {ord : SetOrder} {systems : Dict String String}
    {find : String → String → List (Option String)} {fs : String → Option String} {header : String}
    {r : Option (List String × String)} (h : mergeHeader ord systems find fs header = .ok r) :
    r = none ∨ ∃ text, r = some (outputDir header ++ [header], text) := by
  obtain ⟨similar, -, h⟩ := bind_eq_ok.1 h
  split_ifs at h
  · exact .inl (Except.ok.inj h).symm
  · rcases intelligentMerge_spec ord fs header similar with ⟨-, he⟩ | ⟨text, -, he⟩ <;>
      rw [he] at h <;> cases h
    · exact .inl rfl
    · exact .inr ⟨text, rfl⟩

/-- `find_similar_files` raises nothing when every line `find` prints is UTF-8. -/
theorem findSimilarFiles_ok (systems : Dict String String) {find : String → String → List (Option String)}
    (hfind : ∀ p n, ∀ l ∈ find p n, l.isSome) (filename : String) :
    ∃ similar, findSimilarFiles systems find filename = .ok similar := by
  refine (foldlM_inv (fun _ => True) _ _ (fun sp _ similar _ => ?_) _ trivial).imp fun _ => And.left
  obtain ⟨out, ho⟩ := stdoutText_ok (hfind sp.2 filename)
  exact ⟨_, bind_eq_ok.2 ⟨out, ho, rfl⟩, trivial⟩

/-- **No iteration of `merge_headers` raises** when every line `find` prints is UTF-8:
    the `IndexError` of `synthesize_content` never surfaces. -/
theorem mergeHeader_ok (ord : SetOrder) (systems : Dict String String)
    {find : String → String → List (Option String)} (hfind : ∀ p n, ∀ l ∈ find p n, l.isSome)
    (fs : String → Option String) (header : String) :
    ∃ r, mergeHeader ord systems find fs header = .ok r := by
  obtain ⟨similar, hs⟩ := findSimilarFiles_ok systems hfind header
  by_cases h0 : similar.size = 0
  · exact ⟨none, bind_eq_ok.2 ⟨similar, hs, if_pos h0⟩⟩
  · rcases intelligentMerge_spec ord fs header similar with ⟨-, he⟩ | ⟨text, -, he⟩ <;>
      exact ⟨_, bind_eq_ok.2 ⟨similar, hs, by rw [if_neg h0, he]⟩⟩

end MachSynth
