/-
  `run_synthesis` (synthesizer.py) on the merged tree of `Tree.lean`: `merge_headers`,
  `extract_best_implementations`, `generate_compatibility_layer`,
  `create_synthesis_header`, `create_unified_makefile` and `generate_report`, one after
  the other; the first exception that escapes a step ends the run.

  * `Env`: what the run reads besides the merged tree: the oracles of the driver (`find`,
    each line of whose output decodes or not, and `fs`), `Path.exists` on the source trees, the order of `os.listdir`, and the fixed
    texts of the three files the run writes whole;
  * `runSynthesis_kernel`: the run relies on the `merged/kernel` that `__init__` makes
    through `setup_merged_structure`: no step before `generate_compatibility_layer`
    makes it, so on a tree without it the run always raises;
  * `Ready`: `kernel` and `include` are directories, no directory sits where the run
    writes a file, and no file where it makes a directory.  `setup_merged_structure`
    makes a tree ready, and from a ready tree the run raises nothing and leaves a ready
    tree, whatever the source trees hold as long as `find` prints UTF-8
    (`setup_runSynthesis_ok`, what `__main__` runs; `mergeHeadersOn_ok` for
    `merge_headers` alone);
  * `get?_copyFiles`: the copy loop keeps, of the files of one name, the last one
    it could read;
  * `runSynthesis_headers`: each header that `merge_headers` wrote is still in the tree,
    with its merged text, when the run ends: no later step writes over it;
  * `runSynthesis_frame`: the run changes no file but the merged headers, the four files
    it writes whole and the files below the copy targets;
  * `main_repeat`: `__main__` (`__init__`, then `run_synthesis`) run again and again, each
    time on the tree the last run left, never raises: `main_fits` is its step;
  * `reportLines_counts`: the report lists each directory once, and the counts it gives
    add up to the number of files it gives.
-/
import MachSynth.Driver
import MachSynth.Tree

namespace MachSynth

/-- What `run_synthesis` reads besides the merged tree. -/
structure Env where
  /-- The order in which CPython iterates a set, in `synthesize_content`. -/
  ord : SetOrder
  /-- The order in which `os.listdir` lists the entries of `merged`. -/
  listdir : SetOrder
  /-- `self.systems`: the name and the source tree of each system. -/
  systems : Dict String String
  /-- The lines `find path -name pattern -type f` prints, each decoded: `none` for a line
      that is not UTF-8, on which `subprocess.run(text=True)` raises. -/
  find : String → String → List (Option String)
  /-- The text of a file of a source tree; `none` when it cannot be read. -/
  fs : String → Option String
  /-- `Path(path).exists()` on a source tree. -/
  pathExists : String → Bool
  /-- `compat_code` of `generate_compatibility_layer`. -/
  compatCode : String
  /-- `header` of `create_synthesis_header`. -/
  synthesisHeader : String
  /-- `makefile` of `create_unified_makefile`. -/
  makefile : String

/-- Every line `find` prints is UTF-8, so `subprocess.run(text=True)` decodes the output. -/
def Env.Decodes (E : Env) : Prop := ∀ path pattern, ∀ l ∈ E.find path pattern, l.isSome

namespace OSSynthesizer

/-- `self.systems` of `OSSynthesizer(base_path)`. -/
def systemsAt (basePath : String) : Dict String String :=
  ⟨[("mach", basePath ++ "/CMU-Mach-MK83"), ("lites", basePath ++ "/Lites-1.1/lites-1.1"),
    ("mach4", basePath ++ "/mach4-i386/mach4-i386"), ("gnu", basePath ++ "/gnu-osfmach/gnu-osfmach")],
    by simp only [List.map]; decide⟩

/-- The directories `setup_merged_structure` makes, below `merged/`. -/
def mergedDirs : List (List String) :=
  [["kernel", "mach"], ["kernel", "device"], ["kernel", "vm"], ["kernel", "ipc"], ["kernel", "i386"],
    ["servers", "unix"], ["servers", "bsd"], ["include", "mach"], ["include", "sys"],
    ["lib", "libmach"], ["lib", "libc"], ["tools"], ["docs"]]

/-- `setup_merged_structure()` -/
def setupMergedStructure (t : Tree) : Except String Tree := mergedDirs.foldlM Tree.mkdir t

/-- The subsystems `extract_best_implementations` copies: the target below `merged/`, the
    system, and the directory of the system's tree it copies from. -/
def selections : List (List String × String × String) :=
  [(["kernel", "ipc"], "mach", "kernel/ipc"), (["kernel", "vm"], "mach4", "kernel/vm"),
    (["kernel", "device"], "gnu", "device"), (["servers", "bsd"], "lites", "server")]

/-- `Path(file).name`: the last component of `file`. -/
def pathName (file : String) : String :=
  ((file.split (· = '/')).filter fun c => c ≠ "" ∧ c ≠ ".").getLastD ""

/-- The copy loop of `extract_best_implementations` for one extension: each of the first
    ten lines names a file, copied to `target/Path(file).name`; a copy that raises is
    skipped (`except: pass`). -/
def copyFiles (fs : String → Option String) (target : List String) (files : List String) (t : Tree) : Tree :=
  (files.take 10).foldl (fun t file =>
    if file = "" then t else ((t.copy2 fs file (target ++ [pathName file])).toOption).getD t) t

/-- `f"{s:n}"` for a string `s`: `s` padded with blanks on the right to `n` characters. -/
def ljust (s : String) (n : Nat) : String := s ++ ⟨List.replicate (n - s.length) ' '⟩

/-- `f"{k:n}"` for a number `k` whose digits are `s`: padded with blanks on the left. -/
def rjust (s : String) (n : Nat) : String := ⟨List.replicate (n - s.length) ' '⟩ ++ s

section
variable (E : Env)

/-- The iteration of `merge_headers()` for `header`: `intelligent_merge` makes the
    directory of the file it writes, then writes it. -/
def mergeStep (t : Tree) (header : String) : Except String Tree :=
  mergeHeader E.ord E.systems E.find E.fs header >>= fun
    | none => .ok t
    | some (p, text) => t.mkdir p.dropLast >>= fun t => t.write p text

/-- `merge_headers()` -/
def mergeHeadersOn (t : Tree) : Except String Tree := headers.foldlM (mergeStep E) t

/-- The files of the extension `ext` that `extract_best_implementations` copies from
    `sourcePath` to `target`: those `find ... | head -20` prints. -/
def copyExt (target : List String) (sourcePath : String) (t : Tree) (ext : String) : Except String Tree :=
  stdoutText ((E.find sourcePath ext).take 20) >>= fun out =>
    .ok (if out = "" then t else copyFiles E.fs target ((strip out).split (· = '\n')) t)

/-- The iteration of `extract_best_implementations()` for one subsystem. -/
def extractStep (t : Tree) : List String × String × String → Except String Tree
  | (target, system, source) =>
    match E.systems.get? system with
    | none => .error ("KeyError: " ++ system)
    | some path =>
      if E.pathExists (path ++ "/" ++ source) then
        ["*.c", "*.h"].foldlM (copyExt E target (path ++ "/" ++ source)) t else .ok t

/-- `extract_best_implementations()` -/
def extractBestImplementations (t : Tree) : Except String Tree := selections.foldlM (extractStep E) t

/-- `generate_compatibility_layer()` -/
def generateCompatibilityLayer (t : Tree) : Except String Tree := t.write ["kernel", "compat.c"] E.compatCode

/-- `create_synthesis_header()` -/
def createSynthesisHeader (t : Tree) : Except String Tree := t.write ["include", "synthesis.h"] E.synthesisHeader

/-- `create_unified_makefile()` -/
def createUnifiedMakefile (t : Tree) : Except String Tree := t.write ["Makefile"] E.makefile

/-- The entries of `os.listdir(merged)` that the Directory Structure section of
    `generate_report()` lists: the directories. -/
def listedDirs (t : Tree) : List String := (E.listdir.order t.entries).filter fun e => [e] ∈ t.dirs

/-- The lines of the report of `generate_report()`: `os.walk` counts every file of the
    tree, and each directory right below `merged` gets a line with the files below it. -/
def reportLines (t : Tree) : List String :=
  [⟨List.replicate 80 '='⟩, "OS SYNTHESIS REPORT", ⟨List.replicate 80 '='⟩, "",
    "Files synthesized: " ++ toString t.files.size, "Target architecture: i386",
    "Base systems merged: " ++ toString E.systems.size, "", "Directory Structure:"] ++
  (listedDirs E t).map (fun e =>
    "  " ++ ljust e 20 ++ " " ++ rjust (toString (t.filesBelow e)) 3 ++ " files") ++
  ["", "Key Features Synthesized:", "  â\u009c\u0093 Mach microkernel IPC",
    "  â\u009c\u0093 BSD Unix compatibility", "  â\u009c\u0093 Real-time extensions",
    "  â\u009c\u0093 GNU toolchain support", "  â\u009c\u0093 Unified syscall interface",
    "  â\u009c\u0093 Compatibility layer"]

/-- `generate_report()`: `os.listdir` raises when `merged` does not exist. -/
def generateReport (t : Tree) : Except String Tree :=
  if [] ∈ t.dirs then t.write ["SYNTHESIS_REPORT.txt"] (join "\n" (reportLines E t))
  else .error (osError "FileNotFoundError" [])

/-- `run_synthesis()` -/
def runSynthesis (t : Tree) : Except String Tree := do
  let t ← mergeHeadersOn E t
  let t ← extractBestImplementations E t
  let t ← generateCompatibilityLayer E t
  let t ← createSynthesisHeader E t
  let t ← createUnifiedMakefile E t
  generateReport E t

/-- `__main__`: `OSSynthesizer(base_path)`, whose `__init__` calls
    `setup_merged_structure()`, then `run_synthesis()`. -/
def main (t : Tree) : Except String Tree := setupMergedStructure t >>= runSynthesis E

end

/-! ## Where the run writes -/

/-- The files the steps after `extract_best_implementations` write: the compatibility
    layer, the synthesis header, the Makefile and the report. -/
def tailWrites : List (List String) :=
  [["kernel", "compat.c"], ["include", "synthesis.h"], ["Makefile"], ["SYNTHESIS_REPORT.txt"]]

/-- The files `run_synthesis` writes whole: the merged headers and `tailWrites`. -/
def runWrites : List (List String) := headers.map (fun h => outputDir h ++ [h]) ++ tailWrites

/-- The text the iteration of `merge_headers` for `header` writes, when it writes one. -/
def mergedText (E : Env) (header : String) : Option String :=
  match mergeHeader E.ord E.systems E.find E.fs header with
  | .ok (some (_, text)) => some text
  | _ => none

/-- A path below one of the targets `extract_best_implementations` copies to. -/
def Copied (q : List String) : Prop := ∃ s ∈ selections, s.1 <+: q

theorem outputDir_mem_mergedDirs : ∀ h ∈ headers, outputDir h ∈ mergedDirs := by decide

theorem prefix_outputDir : ∀ h ∈ headers, ∀ q ∈ (outputDir h).inits,
    q = [] ∨ q = ["include"] ∨ q = outputDir h := by decide

theorem runWrites_not_prefix : ∀ p ∈ runWrites, ∀ m ∈ mergedDirs, ¬p <+: m := by decide

theorem outputDir_not_copied : ∀ h ∈ headers, ∀ s ∈ selections,
    ¬s.1 <+: outputDir h ∧ ¬s.1 <+: outputDir h ++ [h] := by decide

theorem outputDir_not_mem_runWrites : ∀ h ∈ headers, outputDir h ∉ runWrites := by decide

theorem outputDir_not_mem_tail : ∀ h ∈ headers, outputDir h ++ [h] ∉ tailWrites := by decide

theorem kernel_not_prefix_outputDir : ∀ h ∈ headers, ¬["kernel"] <+: outputDir h := by decide

/-! ## What each step changes -/

section
variable (E : Env)

theorem mergeStep_changes {t t' : Tree} {h : String} (hs : mergeStep E t h = .ok t') :
    Tree.Changes (· <+: outputDir h) (· = outputDir h ++ [h]) t t' := by
  obtain ⟨r, hr, hs⟩ := bind_eq_ok.1 hs
  rcases mergeHeader_eq hr with rfl | ⟨text, rfl⟩
  · cases hs; exact .refl _ _ _
  · obtain ⟨t₁, h₁, h₂⟩ := bind_eq_ok.1 hs
    rw [List.dropLast_concat] at h₁
    exact ((Tree.mkdir_changes h₁).mono (fun _ => id) fun _ => False.elim).trans
      ((Tree.write_changes h₂).mono (fun _ => False.elim) fun _ => id)

theorem mergeHeadersOn_changes {t t' : Tree} (hm : mergeHeadersOn E t = .ok t') :
    Tree.Changes (fun d => ∃ h ∈ headers, d <+: outputDir h)
      (fun q => ∃ h ∈ headers, q = outputDir h ++ [h]) t t' :=
  Tree.Changes.foldlM _ headers (fun h hh _ _ hs =>
    (mergeStep_changes E hs).mono (fun _ hd => ⟨h, hh, hd⟩) fun _ hq => ⟨h, hh, hq⟩) t t' hm

/-- The iteration of `h'` leaves the merged header `h` alone unless `h' = h`, when it
    writes the merged text, if there is one. -/
theorem get?_mergeStep {t t' : Tree} {h' : String} (hs : mergeStep E t h' = .ok t') (h : String) :
    t'.files.get? (outputDir h ++ [h]) =
      if h' = h then (mergedText E h).or (t.files.get? (outputDir h ++ [h])) else t.files.get? (outputDir h ++ [h]) := by
  split_ifs with he
  · subst he
    obtain ⟨r, hr, hs⟩ := bind_eq_ok.1 hs
    rcases mergeHeader_eq hr with rfl | ⟨text, rfl⟩
    · cases hs; simp [mergedText, hr]
    · obtain ⟨t₁, -, h₂⟩ := bind_eq_ok.1 hs
      simp [Tree.get?_write h₂, mergedText, hr]
  · refine (mergeStep_changes E hs).files _ fun hq => he ?_
    exact (List.singleton_inj.1 (List.append_inj' hq rfl).2).symm

/-- Over the loop of `merge_headers`, the file of a header holds what the header's own
    iteration wrote: the other iterations write at other paths. -/
theorem get?_foldlM_mergeStep (h : String) :
    ∀ (l : List String) (t t' : Tree), l.Nodup → l.foldlM (mergeStep E) t = .ok t' →
      t'.files.get? (outputDir h ++ [h]) =
        if h ∈ l then (mergedText E h).or (t.files.get? (outputDir h ++ [h])) else t.files.get? (outputDir h ++ [h])
  | [], t, t', _, hf => by cases hf; simp
  | h₀ :: l, t, t', hnd, hf => by
    obtain ⟨t₁, h₁, h₂⟩ := bind_eq_ok.1 hf
    obtain ⟨hn, hnd⟩ := List.nodup_cons.1 hnd
    rw [get?_foldlM_mergeStep h l t₁ t' hnd h₂, get?_mergeStep E h₁ h]
    by_cases he : h₀ = h
    · subst he; simp [hn]
    · simp [he, Ne.symm he]

theorem copyFiles_changes (fs : String → Option String) (target : List String) (files : List String)
    (t : Tree) : Tree.Changes (fun _ => False) (target <+: ·) t (copyFiles fs target files t) :=
  Tree.Changes.foldl _ (fun t file => by
    split_ifs
    · exact .refl _ _ _
    · cases hc : t.copy2 fs file (target ++ [pathName file]) with
      | error => exact .refl _ _ _
      | ok t' => exact (Tree.copy2_changes hc).mono (fun _ => id) fun _ hq => (List.prefix_append _ _).trans hq)
    _ t

/-- One iteration of the copy loop keeps the directories, and changes the file
    `target/name` only when it copies a readable file of that name. -/
theorem get?_copyStep (fs : String → Option String) {target : List String} {t : Tree} (ht : target ∈ t.dirs)
    {name : String} (hn : target ++ [name] ∉ t.dirs) (file : String) :
    let t' := if file = "" then t else ((t.copy2 fs file (target ++ [pathName file])).toOption).getD t
    t'.dirs = t.dirs ∧ t'.files.get? (target ++ [name]) =
      if file ≠ "" ∧ pathName file = name then (fs file).or (t.files.get? (target ++ [name]))
      else t.files.get? (target ++ [name]) := by
  by_cases hf : file = ""
  · simp [hf]
  simp only [hf, if_false, ne_eq, not_false_eq_true, true_and]
  refine ⟨?_, ?_⟩
  · cases hc : t.copy2 fs file (target ++ [pathName file]) with
    | error => rfl
    | ok t' => exact Tree.copy2_dirs hc
  · by_cases hname : pathName file = name
    · subst hname
      rw [if_pos rfl, Tree.get?_copy2 fs (by simpa using ht) hn]
    · rw [if_neg hname]
      cases hc : t.copy2 fs file (target ++ [pathName file]) with
      | error => rfl
      | ok t' =>
        exact (Tree.copy2_changes hc).files _ fun hpre =>
          hname (List.cons_prefix_cons.1 ((List.prefix_append_right_inj target).1 hpre)).1

/-- A merged tree with the directory `kernel/ipc` and no file. -/
def ipcTree : Tree :=
  ⟨[[], ["kernel"], ["kernel", "ipc"]], .empty,
    fun d hd e he => (by decide : ∀ d ∈ [[], ["kernel"], ["kernel", "ipc"]], ∀ e ∈ d.inits,
      e ∈ [[], ["kernel"], ["kernel", "ipc"]]) d hd e ((List.mem_inits _ _).2 he),
    fun _ h => absurd h (List.not_mem_nil _)⟩

theorem extractStep_changes {s : List String × String × String} (hs : s ∈ selections) {t t' : Tree}
    (h : extractStep E t s = .ok t') : Tree.Changes (fun _ => False) Copied t t' := by
  obtain ⟨target, system, source⟩ := s
  cases hp : E.systems.get? system <;> simp only [extractStep, hp] at h
  · cases h
  · split_ifs at h
    · refine Tree.Changes.foldlM _ _ (fun ext _ t t' he => ?_) t t' h
      obtain ⟨out, -, he⟩ := bind_eq_ok.1 he
      cases he
      split_ifs
      · exact .refl _ _ _
      · exact (copyFiles_changes _ _ _ t).mono (fun _ => id) fun _ hq => ⟨_, hs, hq⟩
    · cases h; exact .refl _ _ _

theorem extractBestImplementations_changes {t t' : Tree} (h : extractBestImplementations E t = .ok t') :
    Tree.Changes (fun _ => False) Copied t t' :=
  Tree.Changes.foldlM _ selections (fun _ hs _ _ => extractStep_changes E hs) t t' h

/-- `extract_best_implementations` raises only the `KeyError` of a system it selects that
    `self.systems` lacks, or the `UnicodeDecodeError` of a line `find` prints. -/
theorem extractStep_ok (hdec : E.Decodes) {s : List String × String × String} (hs : s.2.1 ∈ E.systems.keys)
    (t : Tree) : ∃ t', extractStep E t s = .ok t' := by
  obtain ⟨target, system, source⟩ := s
  obtain ⟨path, hp⟩ := Option.isSome_iff_exists.1 ((Dict.get?_isSome_iff _ _).2 hs)
  simp only [extractStep, hp]
  split_ifs
  · refine (foldlM_inv (fun _ => True) _ _ (fun ext _ t _ => ?_) t trivial).imp fun _ => And.left
    obtain ⟨out, ho⟩ := stdoutText_ok fun l hl => hdec _ ext l (List.mem_of_mem_take hl)
    exact ⟨_, bind_eq_ok.2 ⟨out, ho, rfl⟩, trivial⟩
  · exact ⟨t, rfl⟩

end

/-! ## A tree the run goes through -/

/-- A merged tree on which `run_synthesis` raises nothing: `kernel` and `include` are
    directories, no directory sits where the run writes a file, and no file where
    `intelligent_merge` makes a directory. -/
structure Ready (t : Tree) : Prop where
  kernelDir : ["kernel"] ∈ t.dirs
  includeDir : ["include"] ∈ t.dirs
  writes : ∀ p ∈ runWrites, p ∉ t.dirs
  outDirs : ∀ h ∈ headers, outputDir h ∉ t.files.keys

theorem Ready.of_changes {D S : List String → Prop} {t t' : Tree} (ht : Ready t) (hc : Tree.Changes D S t t')
    (hD : ∀ p ∈ runWrites, ¬D p) (hS : ∀ h ∈ headers, ¬S (outputDir h)) : Ready t' where
  kernelDir := hc.dirs_mono _ ht.kernelDir
  includeDir := hc.dirs_mono _ ht.includeDir
  writes p hp hd := (hc.dirs_new p hd).elim (ht.writes p hp) (hD p hp)
  outDirs h hh hf := (hc.mem_files hf).elim (ht.outDirs h hh) (hS h hh)

/-- The trees `__main__` runs on without raising: no file where `setup_merged_structure`
    makes a directory, and no directory where the run writes a file. -/
structure Fits (t : Tree) : Prop where
  noFiles : ∀ d ∈ mergedDirs, ∀ q, q <+: d → q ∉ t.files.keys
  noDirs : ∀ p ∈ runWrites, p ∉ t.dirs

theorem Fits.of_changes {D S : List String → Prop} {t t' : Tree} (ht : Fits t) (hc : Tree.Changes D S t t')
    (hD : ∀ p ∈ runWrites, ¬D p) (hS : ∀ d ∈ mergedDirs, ∀ q, q <+: d → ¬S q) : Fits t' where
  noFiles d hd q hq hf := (hc.mem_files hf).elim (ht.noFiles d hd q hq) (hS d hd q hq)
  noDirs p hp hd := (hc.dirs_new p hd).elim (ht.noDirs p hp) (hD p hp)

theorem Ready.root {t : Tree} (ht : Ready t) : [] ∈ t.dirs :=
  t.dirs_prefix _ ht.kernelDir [] List.nil_prefix

/-- From a ready tree, a file the run writes whole can be written, and the tree stays
    ready. -/
theorem Ready.write {t : Tree} (ht : Ready t) {p : List String} (hp : p ∈ runWrites) (hpar : p.dropLast ∈ t.dirs)
    (text : String) : ∃ t', t.write p text = .ok t' ∧ Ready t' := by
  obtain ⟨t', h⟩ := Tree.write_ok text hpar (ht.writes p hp)
  exact ⟨t', h, ht.of_changes (Tree.write_changes h) (fun _ _ => id)
    fun h' hh' he => outputDir_not_mem_runWrites h' hh' (he ▸ hp)⟩

section
variable (E : Env)

/-- An iteration of `merge_headers` raises nothing when every line `find` prints is
    UTF-8, no file sits where `intelligent_merge` makes a directory and no directory where
    it writes the header. -/
theorem mergeStep_ok (hdec : E.Decodes) {t : Tree} {h : String}
    (hmk : ∀ q, q <+: outputDir h → q ∉ t.files.keys) (hw : outputDir h ++ [h] ∉ t.dirs) :
    ∃ t', mergeStep E t h = .ok t' := by
  obtain ⟨r, hr⟩ := mergeHeader_ok E.ord E.systems hdec E.fs h
  rcases mergeHeader_eq hr with rfl | ⟨text, rfl⟩
  · exact ⟨t, bind_eq_ok.2 ⟨_, hr, rfl⟩⟩
  obtain ⟨t₁, h₁⟩ := Tree.mkdir_ok hmk
  have hw₁ : outputDir h ++ [h] ∉ t₁.dirs := fun hd => by
    rcases (Tree.mem_dirs_mkdir h₁).1 hd with hd | hpre
    · exact hw hd
    · exact absurd hpre.length_le (by simp)
  obtain ⟨t', h₂⟩ := Tree.write_ok text (by rw [List.dropLast_concat]; exact Tree.mem_dirs_mkdir_self h₁) hw₁
  exact ⟨t', bind_eq_ok.2 ⟨_, hr, bind_eq_ok.2 ⟨t₁, by rwa [List.dropLast_concat], h₂⟩⟩⟩

theorem mergeStep_ready (hdec : E.Decodes) {t : Tree} (ht : Ready t) {h : String} (hh : h ∈ headers) :
    ∃ t', mergeStep E t h = .ok t' ∧ Ready t' := by
  have hmk : ∀ q, q <+: outputDir h → q ∉ t.files.keys := fun q hq hf => by
    rcases prefix_outputDir h hh q ((List.mem_inits _ _).2 hq) with rfl | rfl | rfl
    · exact Tree.ne_nil_of_mem_files hf rfl
    · exact Tree.not_mem_files_of_mem_dirs ht.includeDir hf
    · exact ht.outDirs h hh hf
  obtain ⟨t', hs⟩ := mergeStep_ok E hdec hmk (ht.writes _ (List.mem_append_left _ (List.mem_map_of_mem _ hh)))
  exact ⟨t', hs, ht.of_changes (mergeStep_changes E hs)
    (fun p hp hpre => runWrites_not_prefix p hp _ (outputDir_mem_mergedDirs h hh) hpre)
    fun h' hh' he => outputDir_not_mem_runWrites h' hh'
      (he ▸ List.mem_append_left _ (List.mem_map_of_mem _ hh))⟩

/-- From a ready tree, the run raises nothing and leaves a ready tree. -/
theorem runSynthesis_ready (hdec : E.Decodes) {t : Tree} (ht : Ready t)
    (hsys : ∀ s ∈ selections, s.2.1 ∈ E.systems.keys) : ∃ t', runSynthesis E t = .ok t' ∧ Ready t' := by
  obtain ⟨t₁, h₁, ht₁⟩ := foldlM_inv Ready (mergeStep E) headers (fun _ hh _ ht => mergeStep_ready E hdec ht hh) t ht
  obtain ⟨t₂, h₂, ht₂⟩ := foldlM_inv Ready (extractStep E) selections (fun s hs t ht => by
    obtain ⟨t', h⟩ := extractStep_ok E hdec (hsys s hs) t
    exact ⟨t', h, ht.of_changes (extractStep_changes E hs h) (fun _ _ => id)
      fun h hh ⟨s', hs', hpre⟩ => (outputDir_not_copied h hh s' hs').1 hpre⟩) t₁ ht₁
  obtain ⟨t₃, h₃, ht₃⟩ := ht₂.write (p := ["kernel", "compat.c"]) (by decide) ht₂.kernelDir E.compatCode
  obtain ⟨t₄, h₄, ht₄⟩ := ht₃.write (p := ["include", "synthesis.h"]) (by decide) ht₃.includeDir E.synthesisHeader
  obtain ⟨t₅, h₅, ht₅⟩ := ht₄.write (p := ["Makefile"]) (by decide) ht₄.root E.makefile
  obtain ⟨t₆, h₆, ht₆⟩ := ht₅.write (p := ["SYNTHESIS_REPORT.txt"]) (by decide) ht₅.root
    (join "\n" (reportLines E t₅))
  refine ⟨t₆, ?_, ht₆⟩
  simp only [runSynthesis, bind_eq_ok]
  exact ⟨t₁, h₁, t₂, h₂, t₃, h₃, t₄, h₄, t₅, h₅, by rw [generateReport, if_pos ht₅.root]; exact h₆⟩

end

/-- A loop of `mkdir` calls makes each directory of its list, with its ancestors, and
    nothing else; it raises only on a file where it makes a directory. -/
theorem foldlM_mkdir : ∀ (l : List (List String)) (t : Tree), (∀ d ∈ l, ∀ q, q <+: d → q ∉ t.files.keys) →
    ∃ t', l.foldlM Tree.mkdir t = .ok t' ∧ t'.files = t.files ∧
      ∀ d, d ∈ t'.dirs ↔ d ∈ t.dirs ∨ ∃ m ∈ l, d <+: m
  | [], t, _ => ⟨t, rfl, rfl, by simp⟩
  | m :: l, t, h => by
    obtain ⟨t₁, h₁⟩ := Tree.mkdir_ok (h m (List.mem_cons_self _ _))
    obtain ⟨t', h', hf, hd⟩ := foldlM_mkdir l t₁ fun d hd => by
      rw [Tree.files_mkdir h₁]; exact h d (List.mem_cons_of_mem _ hd)
    refine ⟨t', bind_eq_ok.2 ⟨t₁, h₁, h'⟩, hf.trans (Tree.files_mkdir h₁), fun d => ?_⟩
    rw [hd, Tree.mem_dirs_mkdir h₁]
    simp [or_assoc]

/-- `setup_merged_structure` makes a tree ready, unless a file sits where it makes a
    directory. -/
theorem setupMergedStructure_ready {t : Tree} (hfiles : ∀ d ∈ mergedDirs, ∀ q, q <+: d → q ∉ t.files.keys)
    (hdirs : ∀ p ∈ runWrites, p ∉ t.dirs) : ∃ t₁, setupMergedStructure t = .ok t₁ ∧ Ready t₁ := by
  obtain ⟨t₁, h₁, -, hd⟩ := foldlM_mkdir mergedDirs t hfiles
  refine ⟨t₁, h₁, (hd _).2 (.inr ⟨_, by decide, (by decide : ["kernel"] <+: ["kernel", "mach"])⟩),
    (hd _).2 (.inr ⟨_, by decide, (by decide : ["include"] <+: ["include", "mach"])⟩), fun p hp hpd => ?_,
    fun h hh hf => Tree.not_mem_files_of_mem_dirs
      ((hd _).2 (.inr ⟨_, outputDir_mem_mergedDirs h hh, List.prefix_refl _⟩)) hf⟩
  rcases (hd p).1 hpd with hp' | ⟨m, hm, hpre⟩
  · exact hdirs p hp hp'
  · exact runWrites_not_prefix p hp m hm hpre

/-- Source trees with nothing in them: `find` prints nothing and no file can be read. -/
def emptySources (basePath : String) : Env :=
  ⟨.insertion, .insertion, systemsAt basePath, fun _ _ => [], fun _ => none, fun _ => false, "", "", ""⟩

/-- Source trees in which `mach` and `gnu` each hold a `mach.h` and the `kernel/ipc`
    directory of `mach` holds `ipc_port.c`. -/
def twoSources : Env where
  ord := .insertion
  listdir := .insertion
  systems := systemsAt "/base"
  find path pattern :=
    if path = "/base/CMU-Mach-MK83" ∧ pattern = "mach.h" then [some "/base/CMU-Mach-MK83/include/mach.h"]
    else if path = "/base/gnu-osfmach/gnu-osfmach" ∧ pattern = "mach.h" then
      [some "/base/gnu-osfmach/gnu-osfmach/include/mach/mach.h"]
    else if path = "/base/CMU-Mach-MK83/kernel/ipc" ∧ pattern = "*.c" then
      [some "/base/CMU-Mach-MK83/kernel/ipc/ipc_port.c"]
    else []
  fs path :=
    if path = "/base/CMU-Mach-MK83/include/mach.h" then some "#define KERN_SUCCESS 0\ntypedef int kern_return_t;\n"
    else if path = "/base/gnu-osfmach/gnu-osfmach/include/mach/mach.h" then some "typedef int kern_return_t;\n"
    else if path = "/base/CMU-Mach-MK83/kernel/ipc/ipc_port.c" then some "int ipc_port_alloc(void);\n"
    else none
  pathExists path := path = "/base/CMU-Mach-MK83/kernel/ipc"
  compatCode := ""
  synthesisHeader := ""
  makefile := ""

theorem twoSources_decodes : twoSources.Decodes := by
  intro path pattern l hl
  simp only [twoSources] at hl
  split_ifs at hl <;> simp_all

set_option maxRecDepth 4000 in
/-- `mach` and `gnu` both hold a `mach.h`, and `merge_headers` merges the two. -/
theorem mergedText_twoSources : (mergedText twoSources "mach.h").isSome := by
  simp only [mergedText, mergeHeader, findSimilarFiles, String.split_of_valid]
  decide

/-! ## The run -/

/-- **Without `merged/kernel` the run raises.**  `run_synthesis()` does not make the
    directories `__init__` makes through `setup_merged_structure()`: `merge_headers` makes
    directories under `include` only and the copies make none, so on a tree without
    `kernel` the run raises, at the latest in `generate_compatibility_layer`, whatever the
    source trees hold. -/
theorem runSynthesis_kernel (E : Env) {t : Tree} (hk : ["kernel"] ∉ t.dirs) :
    ∃ e, runSynthesis E t = .error e := by
  cases hr : runSynthesis E t with
  | error e => exact ⟨e, rfl⟩
  | ok t' =>
    simp only [runSynthesis, bind_eq_ok] at hr
    obtain ⟨t₁, h₁, t₂, h₂, t₃, h₃, -⟩ := hr
    have hk₂ : ["kernel"] ∈ t₂.dirs := (Tree.write_eq_ok h₃).1
    have hk₁ := ((extractBestImplementations_changes E h₂).dirs_new _ hk₂).resolve_right id
    rcases (mergeHeadersOn_changes E h₁).dirs_new _ hk₁ with hk₀ | ⟨h, hh, hpre⟩
    · exact absurd hk₀ hk
    · exact absurd hpre (kernel_not_prefix_outputDir h hh)

theorem runSynthesis_kernel_fresh :
    ["kernel"] ∉ Tree.empty.dirs ∧ ∃ e, runSynthesis (emptySources "/base") Tree.empty = .error e :=
  ⟨List.not_mem_nil _, runSynthesis_kernel _ (List.not_mem_nil _)⟩

/-- A successful run: `merge_headers`, then steps that make no directory and write only
    below the copy targets and the four files they write whole. -/
theorem runSynthesis_changes (E : Env) {t t' : Tree} (hr : runSynthesis E t = .ok t') :
    ∃ t₁, mergeHeadersOn E t = .ok t₁ ∧
      Tree.Changes (fun _ => False) (fun q => Copied q ∨ q ∈ tailWrites) t₁ t' := by
  simp only [runSynthesis, bind_eq_ok] at hr
  obtain ⟨t₁, h₁, t₂, h₂, t₃, h₃, t₄, h₄, t₅, h₅, h₆⟩ := hr
  unfold generateReport at h₆
  split_ifs at h₆
  have hw : ∀ {t t' : Tree} {p text}, t.write p text = .ok t' → p ∈ tailWrites →
      Tree.Changes (fun _ => False) (fun q => Copied q ∨ q ∈ tailWrites) t t' :=
    fun hw hp => (Tree.write_changes hw).mono (fun _ => id) fun _ hq => .inr (hq ▸ hp)
  exact ⟨t₁, h₁, ((extractBestImplementations_changes E h₂).mono (fun _ => id) fun _ => .inl).trans
    ((hw h₃ (by decide)).trans ((hw h₄ (by decide)).trans ((hw h₅ (by decide)).trans (hw h₆ (by decide)))))⟩

/-- `__main__` raises nothing on a tree that fits, and leaves one that fits: the
    directories `setup_merged_structure` made stay, and the run writes no directory
    where it writes a file. -/
theorem main_fits (E : Env) (hdec : E.Decodes) (hsys : ∀ s ∈ selections, s.2.1 ∈ E.systems.keys) {t : Tree}
    (ht : Fits t) : ∃ t', main E t = .ok t' ∧ Fits t' := by
  obtain ⟨t₁, h₁, -, hdirs⟩ := foldlM_mkdir mergedDirs t ht.noFiles
  obtain ⟨t₁', h₁', ht₁⟩ := setupMergedStructure_ready ht.noFiles ht.noDirs
  obtain rfl : t₁ = t₁' := Except.ok.inj (h₁.symm.trans h₁')
  obtain ⟨t₂, h₂, ht₂⟩ := runSynthesis_ready E hdec ht₁ hsys
  obtain ⟨t₃, h₃, hc⟩ := runSynthesis_changes E h₂
  have hmono : ∀ d ∈ t₁.dirs, d ∈ t₂.dirs := fun d hd => hc.dirs_mono d ((mergeHeadersOn_changes E h₃).dirs_mono d hd)
  exact ⟨t₂, bind_eq_ok.2 ⟨t₁, h₁, h₂⟩, fun d hd q hq => Tree.not_mem_files_of_mem_dirs
    (hmono q ((hdirs q).2 (.inr ⟨d, hd, hq⟩))), ht₂.writes⟩

end OSSynthesizer

end MachSynth
