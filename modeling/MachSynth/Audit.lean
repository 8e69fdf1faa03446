/-
  The TODO list of `AuditAnalyzer` (audit_analyzer.py): `generate_todos` turns the gaps
  the analyses found into TODOs, by priority, and `generate_report` lists the first
  thirty of them, sorted by priority.

  * `Gaps` is `self.gaps`, one record per dict the analyses append.  The analyses that
    fill it are not modelled, so every theorem holds for whatever gaps they find;
  * `symbolTodos` is the loop of `generate_todos` over `undefined_symbols`, with its set
    and its `break`.  `symbolTodos_eq`: it makes a TODO for the first entry of each
    symbol, for the first fifteen symbols (`firstOccurrences`, with `firstOccurrences_nodup`,
    `firstOccurrences_sublist` and `mem_firstOccurrences` saying what it keeps);
  * `reportTodos_generateTodos`: `run_audit` calls `generate_todos` once, on the empty
    list, and the TODOs come by priority, so the stable sort of `generate_report` keeps
    them in the order they were made: the report lists the first thirty made.
-/
import MachSynth.Python

namespace MachSynth

namespace AuditAnalyzer

/-! ## Gaps and TODOs -/

/-- An entry of `self.gaps['header_issues']`. -/
structure HeaderIssue where
  source : String
  missingHeader : String

/-- An entry of `self.gaps['missing_implementations']`. -/
structure MissingImplementation where
  function : String
  header : String

/-- An entry of `self.gaps['undefined_symbols']`. -/
structure UndefinedSymbol where
  source : String
  symbol : String

/-- An entry of `self.gaps['missing_deps']`. -/
structure MissingDep where
  file : String
  issue : String

/-- An entry of `self.gaps['link_errors']`. -/
structure LinkError where
  symbol : String
  duplicatedIn : List String

/-- `self.gaps` -/
structure Gaps where
  missingImplementations : List MissingImplementation
  undefinedSymbols : List UndefinedSymbol
  headerIssues : List HeaderIssue
  linkErrors : List LinkError
  missingDeps : List MissingDep

/-- A TODO: the dict `generate_todos` appends.  `file`, `issue` and `files` are keys of
    some categories only. -/
structure Todo where
  priority : Nat
  category : String
  task : String
  file : Option String
  issue : Option String
  files : Option (List String)

/-- The TODO `generate_todos` makes for an undefined symbol. -/
def symbolTodo (sym : UndefinedSymbol) : Todo :=
  ⟨3, "SYMBOL", "Declare or implement: " ++ sym.symbol, some sym.source, none, none⟩

/-- The loop of `generate_todos` over `undefined_symbols`: `uniqueSymbols` holds the
    symbols it made a TODO for, and it stops at fifteen. -/
def symbolTodos (uniqueSymbols : PySet String) : List UndefinedSymbol → List Todo
  | [] => []
  | sym :: syms =>
    if sym.symbol ∈ uniqueSymbols.elems then symbolTodos uniqueSymbols syms
    else symbolTodo sym ::
      if (uniqueSymbols.add sym.symbol).elems.length ≥ 15 then []
      else symbolTodos (uniqueSymbols.add sym.symbol) syms

/-- `generate_todos()`, appending to `todos`. -/
def generateTodos (todos : List Todo) (gaps : Gaps) : List Todo :=
  todos ++
    (gaps.headerIssues.take 10).map (fun issue =>
      ⟨1, "HEADER", "Create or locate header: " ++ issue.missingHeader, some issue.source, none, none⟩) ++
    (gaps.missingImplementations.take 20).map (fun impl =>
      ⟨2, "IMPLEMENTATION", "Implement function: " ++ impl.function, some impl.header, none, none⟩) ++
    symbolTodos PySet.empty gaps.undefinedSymbols ++
    (gaps.missingDeps.take 10).map (fun dep =>
      ⟨4, "BUILD", "Add to Makefile: " ++ dep.file, none, some dep.issue, none⟩) ++
    (gaps.linkErrors.take 5).map (fun link =>
      ⟨5, "LINK", "Resolve duplicate symbol: " ++ link.symbol, none, none, some link.duplicatedIn⟩)

/-! ## The report -/

/-- `sorted(self.todos, key=lambda x: x['priority'])[:30]`: Python's sort is stable, as
    `List.mergeSort` is. -/
def reportTodos (todos : List Todo) : List Todo :=
  (todos.mergeSort fun a b => a.priority ≤ b.priority).take 30

/-- The lines of the TODO numbered `i` in the report. -/
def todoLines (i : Nat) (todo : Todo) : List String :=
  ["\n" ++ toString i ++ ". [" ++ todo.category ++ "] Priority " ++ toString todo.priority,
    "   Task: " ++ todo.task] ++
  (match todo.file with | some file => ["   File: " ++ file] | none => []) ++
  (match todo.files with | some files => ["   Files: " ++ join ", " (files.take 3)] | none => [])

/-- `generate_report()`: the text of `AUDIT_REPORT.txt`; `totalHeaders` and `totalSources`
    are the numbers of paths `rglob('*.h')` and `rglob('*.c')` list. -/
def generateReport (totalHeaders totalSources : Nat) (gaps : Gaps) (todos : List Todo) : String :=
  join "\n" (
    [⟨List.replicate 80 '='⟩, "SYNTHESIS OS AUDIT REPORT", ⟨List.replicate 80 '='⟩, "",
      "Files Analyzed:", "  Headers (.h): " ++ toString totalHeaders,
      "  Sources (.c): " ++ toString totalSources, "",
      "Gap Analysis:", "  Missing Headers: " ++ toString gaps.headerIssues.length,
      "  Missing Implementations: " ++ toString gaps.missingImplementations.length,
      "  Undefined Symbols: " ++ toString gaps.undefinedSymbols.length,
      "  Link Errors: " ++ toString gaps.linkErrors.length,
      "  Build Issues: " ++ toString gaps.missingDeps.length, "",
      "CRITICAL ISSUES:", ⟨List.replicate 40 '-'⟩] ++
    (if gaps.headerIssues.isEmpty then [] else "\n1. Missing Headers (Top 5):" ::
      (gaps.headerIssues.take 5).map fun issue =>
        "   - " ++ issue.missingHeader ++ " needed by " ++ issue.source) ++
    (if gaps.missingImplementations.isEmpty then [] else "\n2. Missing Implementations (Top 5):" ::
      (gaps.missingImplementations.take 5).map fun impl =>
        "   - " ++ impl.function ++ " declared in " ++ impl.header) ++
    (if gaps.linkErrors.isEmpty then [] else "\n3. Link Conflicts (Top 3):" ::
      (gaps.linkErrors.take 3).map fun link =>
        "   - " ++ link.symbol ++ " duplicated in " ++ toString link.duplicatedIn.length ++ " files") ++
    ["\n" ++ ⟨List.replicate 80 '='⟩, "GRANULAR TODO LIST", ⟨List.replicate 80 '='⟩] ++
    ((reportTodos todos).enumFrom 1).flatMap fun p => todoLines p.1 p.2)

/-! ## One TODO per symbol, for the first fifteen symbols -/

/-- The entries of a list of undefined symbols that no earlier entry shares a symbol
    with. -/
def firstOccurrences : List UndefinedSymbol → List UndefinedSymbol
  | [] => []
  | sym :: syms => sym :: (firstOccurrences syms).filter (·.symbol ≠ sym.symbol)

theorem firstOccurrences_sublist : ∀ l : List UndefinedSymbol, (firstOccurrences l).Sublist l
  | [] => .slnil
  | _ :: l => ((List.filter_sublist _).trans (firstOccurrences_sublist l)).cons₂ _

theorem firstOccurrences_nodup : ∀ l : List UndefinedSymbol, ((firstOccurrences l).map (·.symbol)).Nodup
  | [] => List.nodup_nil
  | sym :: l => by
    refine List.nodup_cons.2 ⟨by simp, ?_⟩
    exact ((List.filter_sublist _).map _).nodup (firstOccurrences_nodup l)

/-- Every symbol of the list has an entry. -/
theorem mem_firstOccurrences {x : String} :
    ∀ l : List UndefinedSymbol, x ∈ (firstOccurrences l).map (·.symbol) ↔ x ∈ l.map (·.symbol)
  | [] => Iff.rfl
  | sym :: l => by
    by_cases hx : x = sym.symbol
    · simp [firstOccurrences, hx]
    · simp only [firstOccurrences, List.map_cons, List.mem_cons, hx, false_or, ← mem_firstOccurrences l,
        List.mem_map, List.mem_filter, decide_eq_true_eq]
      exact ⟨fun ⟨a, ⟨ha, _⟩, e⟩ => ⟨a, ha, e⟩, fun ⟨a, ha, e⟩ => ⟨a, ⟨ha, e ▸ hx⟩, e⟩⟩

/-- Keeping the entries that pass a test of their symbol commutes with
    `firstOccurrences`. -/
theorem firstOccurrences_filter (p : UndefinedSymbol → Bool) (hp : ∀ a b, a.symbol = b.symbol → p a = p b) :
    ∀ l : List UndefinedSymbol, firstOccurrences (l.filter p) = (firstOccurrences l).filter p
  | [] => rfl
  | sym :: l => by
    by_cases hs : p sym = true
    · simp only [List.filter_cons, hs, if_true, firstOccurrences, firstOccurrences_filter p hp l, List.filter_filter,
        Bool.and_comm]
    · simp only [List.filter_cons, hs, Bool.false_eq_true, if_false, firstOccurrences, firstOccurrences_filter p hp l,
        List.filter_filter]
      refine List.filter_congr fun y _ => ?_
      by_cases hy : p y = true
      · have : y.symbol ≠ sym.symbol := fun he => hs (hp y sym he ▸ hy)
        simp [hy, this]
      · simp [hy]

theorem symbolTodos_eq_filter : ∀ (l : List UndefinedSymbol) (seen : PySet String), seen.elems.length < 15 →
    symbolTodos seen l =
      ((firstOccurrences (l.filter (·.symbol ∉ seen.elems))).take (15 - seen.elems.length)).map symbolTodo
  | [], _, _ => by simp [symbolTodos, firstOccurrences]
  | sym :: l, seen, hk => by
    by_cases hs : sym.symbol ∈ seen.elems
    · rw [symbolTodos, if_pos hs, symbolTodos_eq_filter l seen hk, List.filter_cons_of_neg (by simpa using hs)]
    · have hlen : (seen.add sym.symbol).elems.length = seen.elems.length + 1 := by
        rw [PySet.elems_add, if_neg hs, List.length_append, List.length_singleton]
      have hfilter : l.filter (·.symbol ∉ (seen.add sym.symbol).elems) =
          (l.filter (·.symbol ∉ seen.elems)).filter (·.symbol ≠ sym.symbol) := by
        rw [List.filter_filter]
        refine List.filter_congr fun y _ => ?_
        simp [PySet.elems_add, hs, and_comm]
      rw [symbolTodos, if_neg hs, List.filter_cons_of_pos (by simpa using hs), firstOccurrences,
        show 15 - seen.elems.length = (14 - seen.elems.length) + 1 by omega, List.take_succ_cons, List.map_cons]
      congr 1
      split_ifs with h15
      · rw [show 14 - seen.elems.length = 0 by omega]; rfl
      · rw [symbolTodos_eq_filter l _ (by omega), hfilter,
          firstOccurrences_filter (·.symbol ≠ sym.symbol) (fun a b h => by simp [h]), hlen,
          show 15 - (seen.elems.length + 1) = 14 - seen.elems.length by omega]

/-- **The symbol TODOs.**  With its set and its `break`, the loop of `generate_todos`
    over `undefined_symbols` makes one TODO for each of the first fifteen symbols, in the
    order they first occur, each with the source of its first entry. -/
theorem symbolTodos_eq (syms : List UndefinedSymbol) :
    symbolTodos PySet.empty syms = ((firstOccurrences syms).take 15).map symbolTodo := by
  rw [symbolTodos_eq_filter syms PySet.empty (by decide)]
  simp [PySet.empty]

/-! ## The report keeps the order the TODOs were made in -/

/-- The TODOs of `l` come by priority, none above `k`. -/
def Ranked (k : Nat) (l : List Todo) : Prop :=
  l.Pairwise (fun a b => a.priority ≤ b.priority) ∧ ∀ x ∈ l, x.priority ≤ k

theorem Ranked.append {j : Nat} {l b : List Todo} (hl : Ranked j l) (k : Nat) (hjk : j ≤ k)
    (hb : ∀ x ∈ b, x.priority = k) : Ranked k (l ++ b) := by
  refine ⟨List.pairwise_append.2 ⟨hl.1, List.pairwise_of_forall_mem_list fun x hx y hy => by rw [hb x hx, hb y hy],
    fun x hx y hy => by rw [hb y hy]; exact (hl.2 x hx).trans hjk⟩, fun x hx => ?_⟩
  rcases List.mem_append.1 hx with hx | hx
  · exact (hl.2 x hx).trans hjk
  · exact (hb x hx).le

theorem priority_of_mem_symbolTodos : ∀ (l : List UndefinedSymbol) (seen : PySet String),
    ∀ x ∈ symbolTodos seen l, x.priority = 3
  | [], _, _, hx => absurd hx (List.not_mem_nil _)
  | sym :: l, seen, x, hx => by
    unfold symbolTodos at hx
    split_ifs at hx
    · exact priority_of_mem_symbolTodos l seen x hx
    · rcases List.mem_cons.1 hx with rfl | hx
      · rfl
      · exact absurd hx (List.not_mem_nil _)
    · rcases List.mem_cons.1 hx with rfl | hx
      · rfl
      · exact priority_of_mem_symbolTodos l _ x hx

/-- `generate_todos` on the empty list makes its TODOs by priority. -/
theorem ranked_generateTodos (gaps : Gaps) : Ranked 5 (generateTodos [] gaps) := by
  have h₀ : Ranked 0 [] := ⟨.nil, fun _ h => absurd h (List.not_mem_nil _)⟩
  unfold generateTodos
  refine ((((h₀.append 1 (by decide) ?_).append 2 (by decide) ?_).append 3 (by decide)
    (priority_of_mem_symbolTodos _ _)).append 4 (by decide) ?_).append 5 (by decide) ?_ <;>
    exact List.forall_mem_map.2 fun _ _ => rfl

/-- **The report lists the first thirty TODOs made.**  `run_audit` calls
    `generate_todos` once, on the empty list; its TODOs come by priority, so the stable
    sort of `generate_report` keeps them in the order they were made. -/
theorem reportTodos_generateTodos (gaps : Gaps) :
    reportTodos (generateTodos [] gaps) = (generateTodos [] gaps).take 30 := by
  unfold reportTodos
  rw [List.mergeSort_of_sorted ((ranked_generateTodos gaps).1.imp decide_eq_true)]

end AuditAnalyzer

end MachSynth
