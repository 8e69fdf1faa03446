/-
  `OSSynthesizer.synthesize_content` (synthesizer.py): the reconciliation of one header
  across the sources that provide it.

  * the extraction patterns `definePattern`, `typedefPattern`, `functionPattern` and the
    re-lookup patterns `defineLookup`, `typedefLookup`, `functionLookup`, one of each
    per `Kind`;
  * `aggregate`: the extraction loop, building `all_defines`, `all_typedefs` and
    `all_functions` (`Indexes`), each a `defaultdict(set)` from a name to its sources;
  * `sectionEntries`: the iterations of one section loop over the sorted index, each an
    `Entry` (the name, the sources of the provenance comment in set-iteration order,
    the body found by the re-lookup), and `Kind.lines`, the lines one entry appends;
  * `mergedLines` and `synthesizeContent`: the whole artifact.
-/
import MachSynth.Regex

namespace MachSynth

/-! ## Patterns -/

/-- `re.MULTILINE` -/
def multiline : Flags := ⟨true, false⟩

/-- `re.DOTALL` -/
def dotall : Flags := ⟨false, true⟩

/-- No flags. -/
def noFlags : Flags := ⟨false, false⟩

namespace Re

/-- `\s` -/
def space : Re := .cls .space

/-- `\w` -/
def word : Re := .cls .word

/-- `.` -/
def dot : Re := .cls .dot

/-- `(?:extern\s+)?(?:\w+\s+)+`, the specifiers in front of a function name. -/
def specifiers : Re := .seq (.opt (.seq (.lit "extern") (.plus space))) (.plus (.seq (.plus word) (.plus space)))

/-- `\s*\([^)]*\);`, the parameter list after a function name. -/
def params : Re := .seqs [.star true space, .chr '(', .star true (.cls .notRParen), .chr ')', .chr ';']

end Re

/-- `r'^#define\s+(\w+).*$'` under `re.MULTILINE` -/
def definePattern : Pattern :=
  ⟨multiline, .seqs [.bol, .lit "#define", .plus .space], .plus .word, .seq (.star true .dot) .eol⟩

/-- `r'^typedef\s+.*?\s+(\w+);'` under `re.MULTILINE` -/
def typedefPattern : Pattern :=
  ⟨multiline, .seqs [.bol, .lit "typedef", .plus .space, .star false .dot, .plus .space],
    .plus .word, .chr ';'⟩

/-- `r'^(?:extern\s+)?(?:\w+\s+)+(\w+)\s*\([^)]*\);'` under `re.MULTILINE` -/
def functionPattern : Pattern :=
  ⟨multiline, .seq .bol .specifiers, .plus .word, .params⟩

/-- `f'^(#define\\s+{re.escape(define)}.*?)$'` under `re.MULTILINE` -/
def defineLookup (name : String) : Pattern :=
  ⟨multiline, .bol, .seqs [.lit "#define", .plus .space, .lit name, .star false .dot], .eol⟩

/-- `f'(typedef\\s+.*?\\s+{re.escape(typedef)};)'` under `re.DOTALL` -/
def typedefLookup (name : String) : Pattern :=
  ⟨dotall, .eps, .seqs [.lit "typedef", .plus .space, .star false .dot, .plus .space, .lit name,
    .chr ';'], .eps⟩

/-- `f'((?:extern\\s+)?(?:\\w+\\s+)+{re.escape(func)}\\s*\\([^)]*\\);)'` -/
def functionLookup (name : String) : Pattern :=
  ⟨noFlags, .eps, .seqs [.specifiers, .lit name, .params], .eps⟩

/-- The three kinds of symbols, one section of the artifact each. -/
inductive Kind where
  | define | typedef | function
  deriving DecidableEq

/-- The extraction pattern of a kind. -/
def Kind.pattern : Kind → Pattern
  | .define => definePattern
  | .typedef => typedefPattern
  | .function => functionPattern

/-- The re-lookup pattern of a kind, for one name. -/
def Kind.lookup : Kind → String → Pattern
  | .define => defineLookup
  | .typedef => typedefLookup
  | .function => functionLookup

/-! ## The extraction loop -/

/-- `all_defines`, `all_typedefs`, `all_functions`: a `defaultdict(set)` from a name to
    the sources that declare it. -/
abbrev Index := Dict String (PySet String)

/-- `all_x[name].add(system)` -/
def Index.add (ix : Index) (system name : String) : Index :=
  ix.upsert name fun s => (s.getD .empty).add system

/-- `for name in names: all_x[name].add(system)` -/
def Index.addAll (ix : Index) (system : String) (names : List String) : Index :=
  names.foldl (fun ix n => ix.add system n) ix

/-- The three indexes of `synthesize_content`. -/
structure Indexes where
  defines : Index
  typedefs : Index
  functions : Index

/-- The index of one kind. -/
def Indexes.get (ix : Indexes) : Kind → Index
  | .define => ix.defines
  | .typedef => ix.typedefs
  | .function => ix.functions

/-- One iteration of the extraction loop: the names that each pattern finds in the
    source's text are added to the index of its kind. -/
def Indexes.step (ix : Indexes) (sc : String × String) : Indexes :=
  ⟨ix.defines.addAll sc.1 (definePattern.findall sc.2),
    ix.typedefs.addAll sc.1 (typedefPattern.findall sc.2),
    ix.functions.addAll sc.1 (functionPattern.findall sc.2)⟩

/-- The extraction loop over `contents.items()`. -/
def aggregate (contents : Dict String String) : Indexes :=
  contents.items.foldl Indexes.step ⟨.empty, .empty, .empty⟩

theorem Indexes.get_step (ix : Indexes) (sc : String × String) (k : Kind) :
    (ix.step sc).get k = (ix.get k).addAll sc.1 (k.pattern.findall sc.2) := by
  cases k <;> rfl

theorem foldl_step_get (k : Kind) :
    ∀ (l : List (String × String)) (ix : Indexes), (l.foldl Indexes.step ix).get k =
      l.foldl (fun ix sc => ix.addAll sc.1 (k.pattern.findall sc.2)) (ix.get k)
  | [], _ => rfl
  | sc :: l, ix => by simp only [List.foldl_cons, foldl_step_get k l, Indexes.get_step]

/-- The index of one kind is built by its own loop. -/
theorem aggregate_get (contents : Dict String String) (k : Kind) :
    (aggregate contents).get k =
      contents.items.foldl (fun ix sc => ix.addAll sc.1 (k.pattern.findall sc.2)) .empty := by
  cases k <;> exact foldl_step_get _ _ _

/-! ## The sections -/

/-- What one iteration of a section loop emits: the name, the sources listed in its
    provenance comment (when it has one), and the body found by the re-lookup. -/
structure Entry where
  name : String
  comment : Option (List String)
  body : Option String

/-- The re-lookup: the group of the first match of `lookup` in the first source, in
    `contents` order, among `systems` where it matches. -/
def lookupBody (lookup : Pattern) (contents : Dict String String) (systems : PySet String) :
    Option String :=
  (contents.items.filter fun sc => sc.1 ∈ systems.elems).findSome? fun sc =>
    (lookup.search sc.2).map Match.group

/-- Python's order on strings (by code points, lexicographically), decided on the
    character lists. -/
def byName : DecidableRel fun a b : String × PySet String => a.1 ≤ b.1 :=
  fun _ _ => decidable_of_iff _ String.le_iff_toList_le.symm

/-- `sorted(all_x.items())`: the names are distinct, so the items are sorted by name. -/
def sortedItems (ix : Index) : List (String × PySet String) :=
  @List.insertionSort _ _ byName ix.items

theorem sortedItems_perm (ix : Index) : (sortedItems ix).Perm ix.items :=
  @List.perm_insertionSort _ _ byName _

theorem sortedItems_sorted (ix : Index) : (sortedItems ix).Sorted fun a b => a.1 ≤ b.1 :=
  @List.sorted_insertionSort _ _ byName ⟨fun a b => le_total a.1 b.1⟩ ⟨fun _ _ _ => le_trans⟩ _

/-- The iterations of the section loop of kind `k`; `ord` is the iteration order of the
    provenance sets. -/
def sectionEntries (ord : SetOrder) (k : Kind) (contents : Dict String String) : List Entry :=
  (sortedItems ((aggregate contents).get k)).map fun (n, ss) =>
    ⟨n, if ss.elems.length > 1 then some (ord.order ss.elems) else none,
      lookupBody (k.lookup n) contents ss⟩

/-- `f"/* {name}{verb}{', '.join(systems)} */\n"` -/
def provenanceLine (name verb : String) (systems : List String) : String :=
  "/* " ++ name ++ verb ++ join ", " systems ++ " */\n"

/-- `f"HAVE_{typedef.upper()}"`, the guard of a contended typedef. -/
def haveGuard (name : String) : String := "HAVE_" ++ upper name

/-- `match.group(1) + '\n'`, when the re-lookup matched. -/
def Entry.bodyLines (e : Entry) : List String := e.body.toList.map (· ++ "\n")

/-- The lines one iteration appends.  A contended typedef is wrapped in a
    `HAVE_<NAME>` guard. -/
def Kind.lines : Kind → Entry → List String
  | .define, e => (e.comment.map (provenanceLine e.name " defined in: ")).toList ++ e.bodyLines
  | .typedef, e =>
    match e.comment with
    | some systems =>
      [provenanceLine e.name " defined in: " systems, "#ifndef " ++ haveGuard e.name ++ "\n",
        "#define " ++ haveGuard e.name ++ "\n"] ++ e.bodyLines ++ ["#endif\n"]
    | none => e.bodyLines
  | .function, e => (e.comment.map (provenanceLine e.name " available in: ")).toList ++ e.bodyLines

/-- The lines the section loop of kind `k` appends. -/
def sectionLines (ord : SetOrder) (k : Kind) (contents : Dict String String) : List String :=
  (sectionEntries ord k contents).flatMap k.lines

/-- `f"_SYNTHESIZED_{filename.upper().replace('.', '_')}_"` -/
def guardName (filename : String) : String :=
  "_SYNTHESIZED_" ++ replace (upper filename) '.' '_' ++ "_"

/-- `merged_lines` of `synthesize_content` with two or more sources. -/
def mergedLines (ord : SetOrder) (filename : String) (contents : Dict String String) :
    List String :=
  ["/*\n * " ++ filename ++ " - Synthesized from multiple OS sources\n",
    " * Sources: " ++ join ", " contents.keys ++ "\n */\n\n",
    "#ifndef " ++ guardName filename ++ "\n", "#define " ++ guardName filename ++ "\n\n",
    "/* System configuration */\n", "#ifdef SYNTHESIS_MACH\n", "  #define USE_MACH_IPC 1\n",
    "#endif\n\n", "/* Definitions */\n"] ++ sectionLines ord .define contents ++
  ["\n/* Type definitions */\n"] ++ sectionLines ord .typedef contents ++
  ["\n/* Function declarations */\n"] ++ sectionLines ord .function contents ++
  ["\n#endif /* " ++ guardName filename ++ " */\n"]

/-- `OSSynthesizer.synthesize_content(filename, contents)`.  With one source its text is
    returned as it is; with none, `list(contents.values())[0]` raises `IndexError`. -/
def synthesizeContent (ord : SetOrder) (filename : String) (contents : Dict String String) :
    Except String String :=
  match contents.items with
  | [] => .error "IndexError: list index out of range"
  | [(_, text)] => .ok text
  | _ :: _ :: _ => .ok (String.join (mergedLines ord filename contents))

theorem synthesizeContent_of_two_le (ord : SetOrder) (filename : String)
    {contents : Dict String String} (h : 2 ≤ contents.size) :
    synthesizeContent ord filename contents = .ok (String.join (mergedLines ord filename contents)) := by
  unfold synthesizeContent
  unfold Dict.size at h
  match contents.items, h with
  | _ :: _ :: _, _ => rfl

/-- Each section's lines stand in the artifact, one after the other, between the section
    headings. -/
theorem sectionLines_infix_mergedLines (ord : SetOrder) (k : Kind) (filename : String)
    (contents : Dict String String) : sectionLines ord k contents <:+: mergedLines ord filename contents := by
  simp only [mergedLines, List.append_assoc]
  cases k
  · exact List.infix_append' _ _ _
  · exact (List.infix_append' _ _ _).trans ((List.suffix_append _ _).trans (List.suffix_append _ _)).isInfix
  · exact (List.infix_append' _ _ _).trans ((List.suffix_append _ _).trans
      ((List.suffix_append _ _).trans ((List.suffix_append _ _).trans (List.suffix_append _ _)))).isInfix

end MachSynth
