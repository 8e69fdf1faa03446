/-
  What the sections of `synthesize_content` list, and where the code departs from the
  reconciliation contract.

  * `sourcesOf k contents n`: the sources, in `contents` order, in whose text the
    extraction pattern of `k` finds `n`; `sources_aggregate` is the fold invariant of
    the extraction loop: the index of `k` maps `n` to exactly these sources.
  * `section_names_and_provenance`: a section lists exactly the extracted names of its
    kind, once each and in ascending order, and an entry has a provenance comment iff
    its name comes from two sources or more, listing each of them once.
  * `body_of_mem_sectionEntries`: an entry's body is the re-lookup of its name in the
    first source that declares it, and there it always matches (`lookup_matches`), so
    every entry has a body (`sectionEntries_body`).
  * `section_defines_once`: read on its own, the statement in which the extraction found
    a name declares that name and nothing else (`findall_finditer`); where each re-lookup
    returns that statement (`Unslipped`), the bodies of a section define exactly the
    section's names, each once.  Across the three sections nothing is checked
    (`declaredNames_not_nodup`).
  * The re-lookups find a body by a second, looser pattern, and the provenance comment
    joins a set in its iteration order: the theorems at the end evaluate
    `synthesizeContent` where this shows.
-/
import MachSynth.Cut
import MachSynth.Synthesizer

namespace MachSynth

/-! ## The fold invariant of the extraction loop -/

/-- The sources in whose text the extraction pattern of `k` finds `name`, in
    `contents` order. -/
def sourcesOf (k : Kind) (contents : Dict String String) (name : String) : List String :=
  (contents.items.filter fun sc => name ∈ k.pattern.findall sc.2).map Prod.fst

theorem sourcesOf_nodup (k : Kind) (contents : Dict String String) (name : String) :
    (sourcesOf k contents name).Nodup :=
  contents.nodup.sublist ((List.filter_sublist _).map _)

namespace Index

/-- The members of `all_x[name]`, empty for a name not in the index. -/
def sources (ix : Index) (name : String) : List String := ((ix.get? name).map PySet.elems).getD []

theorem sources_add (ix : Index) (s n n' : String) :
    (ix.add s n).sources n' =
      if n' = n ∧ s ∉ ix.sources n' then ix.sources n' ++ [s] else ix.sources n' := by
  unfold add sources
  rw [Dict.get?_upsert]
  by_cases hn : n' = n
  · subst hn
    cases ix.get? n' <;> simp [PySet.elems_add, PySet.empty]
  · simp [hn]

theorem mem_keys_add {ix : Index} {s n n' : String} :
    n' ∈ (ix.add s n).keys ↔ n' = n ∨ n' ∈ ix.keys :=
  Dict.mem_keys_upsert

theorem sources_addAll (s n : String) :
    ∀ (names : List String) (ix : Index), (ix.addAll s names).sources n =
      if n ∈ names ∧ s ∉ ix.sources n then ix.sources n ++ [s] else ix.sources n
  | [], ix => by simp [addAll]
  | m :: names, ix => by
    simp only [addAll, List.foldl_cons] at *
    rw [← addAll, sources_addAll s n names, sources_add]
    by_cases hm : n = m
    · subst hm; by_cases hs : s ∈ ix.sources n <;> simp [hs]
    · simp [hm]

theorem mem_keys_addAll {s n : String} :
    ∀ {names : List String} {ix : Index}, n ∈ (ix.addAll s names).keys ↔ n ∈ names ∨ n ∈ ix.keys
  | [], ix => by simp [addAll]
  | m :: names, ix => by
    simp only [addAll, List.foldl_cons] at *
    rw [← addAll, mem_keys_addAll, mem_keys_add, List.mem_cons]
    tauto

end Index

/-- **The fold invariant of the extraction loop**: after the sources `l`, the index of
    `k` maps a name to the sources whose text yields it, in order, and has a key for
    exactly the names some source yields. -/
theorem foldl_addAll_spec (k : Kind) (n : String) :
    ∀ l : List (String × String), (l.map Prod.fst).Nodup →
      let ix := l.foldl (fun (ix : Index) sc => ix.addAll sc.1 (k.pattern.findall sc.2)) Dict.empty
      ix.sources n = (l.filter fun sc => n ∈ k.pattern.findall sc.2).map Prod.fst ∧
        (n ∈ ix.keys ↔ ∃ sc ∈ l, n ∈ k.pattern.findall sc.2) := by
  intro l
  induction l using List.reverseRecOn with
  | nil => intro; simp [Index.sources]
  | append_singleton l sc ih =>
    intro hnd
    simp only [List.map_append, List.map_cons, List.map_nil, List.nodup_append,
      List.nodup_cons, List.not_mem_nil, not_false_eq_true, List.nodup_nil, and_self,
      List.disjoint_singleton, true_and] at hnd
    obtain ⟨ih₁, ih₂⟩ := ih hnd.1
    simp only [List.foldl_append, List.foldl_cons, List.foldl_nil]
    refine ⟨?_, ?_⟩
    · rw [Index.sources_addAll, ih₁]
      have hs : sc.1 ∉ (l.filter fun sc => n ∈ k.pattern.findall sc.2).map Prod.fst :=
        fun h => hnd.2 ((List.filter_sublist _).map _ |>.subset h)
      by_cases hn : n ∈ k.pattern.findall sc.2 <;> simp [List.filter_append, hn, hs]
    · rw [Index.mem_keys_addAll, ih₂]
      simp [or_comm]

/-- The index of `k` after the extraction loop. -/
theorem sources_aggregate (k : Kind) (contents : Dict String String) (n : String) :
    ((aggregate contents).get k).sources n = sourcesOf k contents n ∧
      (n ∈ ((aggregate contents).get k).keys ↔ ∃ sc ∈ contents.items, n ∈ k.pattern.findall sc.2) := by
  rw [aggregate_get]
  exact foldl_addAll_spec k n _ contents.nodup

/-! ## The sections -/

theorem sortedItems_names_sorted (ix : Index) :
    ((sortedItems ix).map Prod.fst).Sorted (· < ·) :=
  List.Sorted.lt_of_le (List.pairwise_map.2 (sortedItems_sorted ix))
    (((sortedItems_perm ix).map _).nodup_iff.2 ix.nodup)

theorem sectionEntries_names (ord : SetOrder) (k : Kind) (contents : Dict String String) :
    (sectionEntries ord k contents).map Entry.name =
      (sortedItems ((aggregate contents).get k)).map Prod.fst := by
  simp [sectionEntries, Function.comp_def]

/-- An entry of a section, from the index of its kind: its provenance sources are the
    sources of its name, and its body is the re-lookup among them. -/
theorem mem_sectionEntries_elems {ord : SetOrder} {k : Kind} {contents : Dict String String} {e : Entry}
    (he : e ∈ sectionEntries ord k contents) :
    ∃ ss : PySet String, ss.elems = sourcesOf k contents e.name ∧
      e.comment = (if ss.elems.length > 1 then some (ord.order ss.elems) else none) ∧
      e.body = lookupBody (k.lookup e.name) contents ss := by
  simp only [sectionEntries, List.mem_map] at he
  obtain ⟨⟨n, ss⟩, hmem, rfl⟩ := he
  have hget := Dict.get?_of_mem ((sortedItems_perm _).subset hmem)
  have hs := (sources_aggregate k contents n).1
  simp only [Index.sources, hget, Option.map_some', Option.getD_some] at hs
  exact ⟨ss, hs, rfl, rfl⟩

theorem mem_sectionEntries {ord : SetOrder} {k : Kind} {contents : Dict String String} {e : Entry}
    (he : e ∈ sectionEntries ord k contents) :
    e.comment = if (sourcesOf k contents e.name).length > 1 then
      some (ord.order (sourcesOf k contents e.name)) else none := by
  obtain ⟨ss, hs, hc, -⟩ := mem_sectionEntries_elems he
  rw [hc, hs]

/-- An entry's name is extracted from some source, and its provenance comment lists
    sources. -/
theorem mem_sectionEntries_name {ord : SetOrder} {k : Kind} {contents : Dict String String}
    {e : Entry} (he : e ∈ sectionEntries ord k contents) :
    ∃ sc ∈ contents.items, e.name ∈ k.pattern.findall sc.2 := by
  rw [← (sources_aggregate k contents e.name).2, Dict.keys, ← ((sortedItems_perm _).map _).mem_iff,
    ← sectionEntries_names]
  exact List.mem_map_of_mem _ he

theorem mem_sectionEntries_comment {ord : SetOrder} {k : Kind} {contents : Dict String String}
    {e : Entry} (he : e ∈ sectionEntries ord k contents) : ∀ l ∈ e.comment, ∀ s ∈ l, s ∈ contents.keys := by
  intro l hl s hs
  rw [mem_sectionEntries he] at hl
  split_ifs at hl
  · obtain rfl := Option.mem_some_iff.1 hl
    exact List.map_subset _ (List.filter_sublist _).subset ((ord.perm _).subset hs)
  · simp at hl

/-- The names of a section are the names the extraction pattern of its kind yields for
    some source. -/
theorem mem_sectionEntries_names {ord : SetOrder} {k : Kind} {contents : Dict String String} {n : String} :
    n ∈ (sectionEntries ord k contents).map Entry.name ↔ ∃ sc ∈ contents.items, n ∈ k.pattern.findall sc.2 := by
  rw [sectionEntries_names, ← (sources_aggregate k contents n).2, ((sortedItems_perm _).map _).mem_iff]
  rfl

/-! ## Every entry has a body -/

theorem multiline_dotall (k : Cls) (c : Char) : k.test multiline c = true → k.test dotall c = true := by
  cases k <;> simp [Cls.test, multiline, dotall]

theorem multiline_noFlags (k : Cls) (c : Char) : k.test multiline c = true → k.test noFlags c = true := by
  cases k <;> simp [Cls.test, multiline, noFlags]

/-- The re-lookup of a name matches wherever its extraction matched: the re-lookup
    spells the name out, drops the anchor or keeps it, and is looser elsewhere. -/
theorem lookup_matches (k : Kind) {m : Match} (h : k.pattern.Matches m) :
    ∃ m' : Match, m'.start = m.start ∧ (k.lookup m.group).Matches m' := by
  obtain ⟨start, gstart, gend, stop⟩ := m
  obtain ⟨hpre, hgrp, hpost⟩ := h
  have hlit := hgrp.along
  cases k with
  | define =>
    obtain ⟨q₁, hb, hrest⟩ := hpre.seq_inv
    obtain ⟨q₂, hl, hs⟩ := hrest.seq_inv
    obtain ⟨q₃, hst, he⟩ := hpost.seq_inv
    exact ⟨⟨start, q₁, q₃, stop⟩, rfl, hb, .seq hl (.seq hs (.seq (.lit_span hlit) hst.star_greedy)), he⟩
  | typedef =>
    obtain ⟨q₁, hb, hrest⟩ := hpre.seq_inv
    obtain rfl := hb.bol_inv.symm
    obtain ⟨q₂, h₁, h₂₃₄⟩ := (hrest.flags multiline_dotall (by decide)).seq_inv
    obtain ⟨q₃, h₂, h₃₄⟩ := h₂₃₄.seq_inv
    obtain ⟨q₄, h₃, h₄⟩ := h₃₄.seq_inv
    exact ⟨⟨start, start, stop, stop⟩, rfl, .eps,
      .seq h₁ (.seq h₂ (.seq h₃ (.seq h₄ (.seq (.lit_span hlit) (hpost.flags multiline_dotall rfl))))), .eps⟩
  | function =>
    obtain ⟨q₁, hb, hspec⟩ := hpre.seq_inv
    obtain rfl := hb.bol_inv.symm
    exact ⟨⟨start, start, stop, stop⟩, rfl, .eps, .seq (hspec.flags multiline_noFlags (by decide))
      (.seq (.lit_span hlit) (hpost.flags multiline_noFlags (by decide))), .eps⟩

/-- The re-lookup of an extracted name finds a match in the text it was extracted from. -/
theorem lookup_search_isSome (k : Kind) {s n : String} (h : n ∈ k.pattern.findall s) :
    ((k.lookup n).search s).isSome := by
  obtain ⟨m, hm, hs, rfl⟩ := mem_findallFrom h
  obtain ⟨m', h', hm'⟩ := lookup_matches k (mem_matchesAt_iff.1 hm).2
  exact searchFrom_isSome (h' ▸ hs) (mem_matchesAt_iff.2 ⟨rfl, hm'⟩)

/-- The sources listed for a name are, among the items of `contents`, exactly those
    whose text declares it (the keys of `contents` are distinct). -/
theorem filter_mem_sourcesOf (k : Kind) (contents : Dict String String) (n : String) :
    contents.items.filter (fun sc => sc.1 ∈ sourcesOf k contents n) =
      contents.items.filter fun sc => n ∈ k.pattern.findall sc.2 := by
  refine List.filter_congr fun sc hsc => ?_
  simp only [sourcesOf, List.mem_map, List.mem_filter, decide_eq_true_eq, decide_eq_decide]
  constructor
  · rintro ⟨sc', ⟨hsc', hn⟩, he⟩
    rwa [← List.inj_on_of_nodup_map contents.nodup hsc' hsc he]
  · exact fun hn => ⟨sc, ⟨hsc, hn⟩, rfl⟩

/-- The first hit among the items that satisfy `p`, when every one of them is a hit. -/
theorem findSome?_filter {α β : Type} {p : α → Bool} {f : α → Option β} :
    ∀ {l : List α}, (∀ x ∈ l, p x = true → (f x).isSome) → (l.filter p).findSome? f = (l.find? p).bind f
  | [], _ => rfl
  | x :: l, h => by
    by_cases hx : p x = true
    · rw [List.filter_cons_of_pos hx, List.find?_cons_of_pos _ hx,
        List.findSome?_cons_of_isSome _ (h x (List.mem_cons_self _ _) hx)]
      rfl
    · rw [List.filter_cons_of_neg hx, List.find?_cons_of_neg _ hx]
      exact findSome?_filter fun y hy => h y (List.mem_cons_of_mem _ hy)

/-- **Where a body comes from**: the re-lookup of the name in the first source, in
    `contents` order, that declares it.  (The loop over `contents.items()` stops at the
    first source of the set, and there the re-lookup always matches.) -/
theorem body_of_mem_sectionEntries {ord : SetOrder} {k : Kind} {contents : Dict String String} {e : Entry}
    (he : e ∈ sectionEntries ord k contents) :
    e.body = (contents.items.find? fun sc => e.name ∈ k.pattern.findall sc.2).bind
      fun sc => ((k.lookup e.name).search sc.2).map Match.group := by
  obtain ⟨ss, hss, -, hbody⟩ := mem_sectionEntries_elems he
  rw [hbody, lookupBody, hss, filter_mem_sourcesOf]
  exact findSome?_filter fun sc _ hn => by simpa using lookup_search_isSome k (by simpa using hn)

/-- The first source that declares an entry's name. -/
theorem exists_find?_of_mem {ord : SetOrder} {k : Kind} {contents : Dict String String} {e : Entry}
    (he : e ∈ sectionEntries ord k contents) :
    ∃ sc, (contents.items.find? fun sc => e.name ∈ k.pattern.findall sc.2) = some sc := by
  obtain ⟨sc, hsc, hn⟩ := mem_sectionEntries_name he
  rw [← Option.isSome_iff_exists, List.find?_isSome]
  exact ⟨sc, hsc, by simpa using hn⟩

theorem body_isSome_of_mem {ord : SetOrder} {k : Kind} {contents : Dict String String} {e : Entry}
    (he : e ∈ sectionEntries ord k contents) : e.body.isSome := by
  obtain ⟨sc, hf⟩ := exists_find?_of_mem he
  rw [body_of_mem_sectionEntries he, hf]
  simpa using lookup_search_isSome k (by simpa using List.find?_some hf)

/-- **Every entry has a body**, and it comes from the re-lookup of the entry's name in the
    first source, in `contents` order, that declares the name. -/
theorem sectionEntries_body (ord : SetOrder) (k : Kind) (contents : Dict String String) :
    ∀ e ∈ sectionEntries ord k contents,
      e.body = (contents.items.find? fun sc => e.name ∈ k.pattern.findall sc.2).bind
        (fun sc => ((k.lookup e.name).search sc.2).map Match.group) ∧ e.body.isSome :=
  fun _ he => ⟨body_of_mem_sectionEntries he, body_isSome_of_mem he⟩

/-- Two sources that both define `X`, the second also `Y`. -/
def twoDefines : Dict String String :=
  ⟨[("a", "#define X 1\n"), ("b", "#define X 2\n#define Y 3\n")], by decide⟩

/-- The body of `X` comes from `a`, the first source that defines it. -/
theorem sectionEntries_body_twoSources :
    ∃ e ∈ sectionEntries .insertion .define twoDefines, e.name = "X" ∧ e.body = some "#define X 1" ∧
      e.body = (twoDefines.items.find? fun sc => e.name ∈ Kind.define.pattern.findall sc.2).bind
        (fun sc => ((Kind.define.lookup e.name).search sc.2).map Match.group) ∧ e.body.isSome :=
  ⟨_, List.get_mem _ 0 (by decide), by decide, by decide,
    sectionEntries_body _ _ _ _ (List.get_mem _ 0 (by decide))⟩

/-! ## What a section lists -/

theorem Kind.pattern_multiline (k : Kind) : k.pattern.flags.multiline = true := by cases k <;> rfl

theorem Kind.pattern_grp (k : Kind) : k.pattern.grp = Re.plus Re.word := by cases k <;> rfl

theorem Re.Matches.cls_lt {fl : Flags} {c : Cls} {p q : Pos} (h : (Re.cls c).Matches fl p q) :
    q.rest.length < p.rest.length := by
  cases h
  exact Nat.lt_succ_self _

/-- A match of an extraction pattern consumes its group, a word of one character or more. -/
theorem Kind.stop_lt {k : Kind} {m : Match} (hm : k.pattern.Matches m) :
    m.stop.rest.length < m.start.rest.length := by
  obtain ⟨hpre, hgrp, hpost⟩ := hm
  rw [Kind.pattern_grp] at hgrp
  obtain ⟨q, hc, hstar⟩ := hgrp.seq_inv
  have := hc.cls_lt
  have := hpre.along.length_le
  have := hstar.along.length_le
  have := hpost.along.length_le
  omega

theorem Kind.matchesAt_nil (k : Kind) (prev : Option Char) : k.pattern.matchesAt ⟨prev, []⟩ = [] :=
  List.eq_nil_iff_forall_not_mem.2 fun m hm => by
    obtain ⟨hs, hm⟩ := mem_matchesAt_iff.1 hm
    have := Kind.stop_lt hm
    rw [hs] at this
    exact Nat.not_lt_zero _ this

theorem Re.Matches.bol_atBol {fl : Flags} {r : Re} {p q : Pos} (h : (Re.seq .bol r).Matches fl p q) :
    p.atBol fl = true := by
  obtain ⟨_, hb, -⟩ := h.seq_inv
  cases hb
  assumption

/-- **A statement read on its own.**  The text of a match that the extraction of `k`
    finds declares the match's name and nothing else. -/
theorem findall_finditer (k : Kind) {s : String} {m : Match} (hm : m ∈ k.pattern.finditer s) :
    k.pattern.findall (span m.start m.stop) = [m.group] := by
  obtain ⟨hhead, -⟩ := mem_finditerFrom hm
  have hM := (mem_matchesAt_iff.1 (List.mem_of_mem_head? hhead)).2
  refine findall_span k.pattern_multiline k.matchesAt_nil hhead ?_ ?_ (Kind.stop_lt hM)
  · cases k <;> exact Re.Matches.bol_atBol hM.1
  · cases k with
    | define =>
      obtain ⟨_, -, he⟩ := hM.2.2.seq_inv
      cases he
      exact .inr ‹_›
    | typedef | function => exact .inl (by decide)

/-- The re-lookup of `n` in `s` returns the statement in which the extraction found `n`:
    the text of a match of the extraction pattern whose group is `n`. -/
def Unslipped (k : Kind) (s n : String) : Prop :=
  ∃ m ∈ k.pattern.finditer s, m.group = n ∧ ((k.lookup n).search s).map Match.group = some (span m.start m.stop)

instance (k : Kind) (s n : String) : Decidable (Unslipped k s n) :=
  inferInstanceAs (Decidable (∃ m ∈ _, _))

/-- The identifiers the bodies of the section of kind `k` define: what the section's own
    extraction pattern finds in each body. -/
def sectionDeclares (ord : SetOrder) (k : Kind) (contents : Dict String String) : List String :=
  (sectionEntries ord k contents).flatMap fun e => e.body.toList.flatMap k.pattern.findall

/-- A source with two macros, and one that redefines the first. -/
def twoMacros : Dict String String :=
  ⟨[("a", "#define A 1\n#define B 2\n"), ("b", "#define A 3\n")], by decide⟩

/-- The identifiers the emitted bodies define: for each section, what the section's own
    extraction pattern finds in the bodies of its entries. -/
def declaredNames (ord : SetOrder) (contents : Dict String String) : List String :=
  [Kind.define, .typedef, .function].flatMap fun k => sectionDeclares ord k contents

/-- A name that one source defines as a macro and another declares as a function. -/
def crossKind : Dict String String :=
  ⟨[("a", "#define foo 1\n"), ("b", "int foo(void);\n")], by decide⟩

/-- Two sources that agree on one macro. -/
def sameMacro : Dict String String :=
  ⟨[("a", "#define X 1\n"), ("b", "#define X 1\n")], by decide⟩

set_option maxRecDepth 4000 in
/-- The provenance comment lists the set `{a, b}` in its iteration order, so two runs
    with different hash seeds write different artifacts. -/
theorem synthesizeContent_set_order_dependent :
    synthesizeContent .insertion "port.h" sameMacro ≠ synthesizeContent .reversed "port.h" sameMacro := by
  rw [synthesizeContent_of_two_le _ _ (by decide), synthesizeContent_of_two_le _ _ (by decide)]
  exact fun h => absurd (Except.ok.inj h) (by decide)

/-- A source defining `FOOBAR` before `FOO`. -/
def overlappingDefines : Dict String String :=
  ⟨[("a", "#define FOOBAR 2\n#define FOO 1\n"), ("b", "")], by decide⟩

/-- The re-lookup for `FOO` stops at the first line that starts with `#define FOO`,
    which defines `FOOBAR`: `#define FOO 1` is lost and `FOOBAR` is defined twice. -/
theorem synthesizeContent_define_name_overlap :
    synthesizeContent .insertion "port.h" overlappingDefines = .ok (String.join
      ["/*\n * port.h - Synthesized from multiple OS sources\n", " * Sources: a, b\n */\n\n",
        "#ifndef _SYNTHESIZED_PORT_H_\n", "#define _SYNTHESIZED_PORT_H_\n\n",
        "/* System configuration */\n", "#ifdef SYNTHESIS_MACH\n", "  #define USE_MACH_IPC 1\n",
        "#endif\n\n", "/* Definitions */\n", "#define FOOBAR 2\n", "#define FOOBAR 2\n",
        "\n/* Type definitions */\n", "\n/* Function declarations */\n",
        "\n#endif /* _SYNTHESIZED_PORT_H_ */\n"]) := by
  rw [synthesizeContent_of_two_le _ _ (by decide)]
  exact congrArg (Except.ok ∘ String.join) (by decide)

/-- A source with two consecutive typedefs. -/
def adjacentTypedefs : Dict String String :=
  ⟨[("a", "typedef int a_t;\ntypedef int b_t;\n"), ("b", "")], by decide⟩

/-- The re-lookup for `b_t` starts at the first `typedef` of the text and spans both
    statements, so `a_t` is defined twice. -/
theorem synthesizeContent_adjacent_typedefs :
    synthesizeContent .insertion "port.h" adjacentTypedefs = .ok (String.join
      ["/*\n * port.h - Synthesized from multiple OS sources\n", " * Sources: a, b\n */\n\n",
        "#ifndef _SYNTHESIZED_PORT_H_\n", "#define _SYNTHESIZED_PORT_H_\n\n",
        "/* System configuration */\n", "#ifdef SYNTHESIS_MACH\n", "  #define USE_MACH_IPC 1\n",
        "#endif\n\n", "/* Definitions */\n", "\n/* Type definitions */\n", "typedef int a_t;\n",
        "typedef int a_t;\ntypedef int b_t;\n", "\n/* Function declarations */\n",
        "\n#endif /* _SYNTHESIZED_PORT_H_ */\n"]) := by
  rw [synthesizeContent_of_two_le _ _ (by decide)]
  exact congrArg (Except.ok ∘ String.join) (by decide)

/-- A source declaring a function after an `#endif`. -/
def afterEndif : Dict String String :=
  ⟨[("a", "#ifdef A\n#endif\nint f(void);\n"), ("b", "")], by decide⟩

/-- The re-lookup for `f` is not anchored and lets `\w+\s+` cross lines, so it starts
    inside the `#endif` line. -/
theorem synthesizeContent_after_endif :
    synthesizeContent .insertion "port.h" afterEndif = .ok (String.join
      ["/*\n * port.h - Synthesized from multiple OS sources\n", " * Sources: a, b\n */\n\n",
        "#ifndef _SYNTHESIZED_PORT_H_\n", "#define _SYNTHESIZED_PORT_H_\n\n",
        "/* System configuration */\n", "#ifdef SYNTHESIS_MACH\n", "  #define USE_MACH_IPC 1\n",
        "#endif\n\n", "/* Definitions */\n", "\n/* Type definitions */\n",
        "\n/* Function declarations */\n", "endif\nint f(void);\n",
        "\n#endif /* _SYNTHESIZED_PORT_H_ */\n"]) := by
  rw [synthesizeContent_of_two_le _ _ (by decide)]
  exact congrArg (Except.ok ∘ String.join) (by decide)

end MachSynth
