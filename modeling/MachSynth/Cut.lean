/-
  A match read on its own text.  `re.findall` of a multiline pattern, on the text of a
  match that `re.finditer` found, finds that match again and nothing else: a statement
  the extraction found, read alone, declares the name it was found under.

  * `Pos.Cut fl u q' q`: `q'` is the point `q` of a subject cut before its last part
    `u`;
  * `run_cut`: from related points, a regex ends at related points, in the same order,
    except at the ends past the cut, when `$` holds at the cut or the regex has none
    (`Re.eolFree`); `starRun_cut` is its repetition case, by induction on the fuel;
  * `matchesAt_cut`: the same for the matches of a pattern;
  * `findall_span`: the text of the first match at a point, at the start of a line,
    yields the match's group and nothing else.
-/
import MachSynth.Matching
import Mathlib.Data.List.Forall2

namespace MachSynth

/-- `r` has no `$`. -/
def Re.eolFree : Re → Bool
  | .eol => false
  | .seq r s => r.eolFree && s.eolFree
  | .star _ r | .opt r => r.eolFree
  | .chr _ | .cls _ | .bol | .eps => true

/-- A point no later than the last part `u` of the subject. -/
def Pos.Before (u : List Char) (q : Pos) : Bool := u.length ≤ q.rest.length

/-- `q'` is the point `q` of a subject cut before its last part `u`: the text up to `u`
    is the same, and so is the character before the point, except at the start of the
    cut subject, which stands, as `q` does, at the start of a line. -/
def Pos.Cut (fl : Flags) (u : List Char) (q' q : Pos) : Prop :=
  q.rest = q'.rest ++ u ∧ (q'.prev = q.prev ∨ q'.prev = none ∧ q.atBol fl = true)

/-- `m'` is the match `m` of a subject cut before its last part `u`. -/
def Match.Cut (fl : Flags) (u : List Char) (m' m : Match) : Prop :=
  m'.start.Cut fl u m.start ∧ m'.gstart.Cut fl u m.gstart ∧ m'.gend.Cut fl u m.gend ∧
    m'.stop.Cut fl u m.stop

theorem forall₂_flatMap {α β γ δ : Type} {R : α → β → Prop} {S : γ → δ → Prop} {f : α → List γ}
    {g : β → List δ} : ∀ {l₁ : List α} {l₂ : List β}, List.Forall₂ R l₁ l₂ →
      (∀ a ∈ l₁, ∀ b ∈ l₂, R a b → List.Forall₂ S (f a) (g b)) →
      List.Forall₂ S (l₁.flatMap f) (l₂.flatMap g)
  | [], [], .nil, _ => .nil
  | a :: _, b :: _, .cons hab hl, h => by
    simp only [List.flatMap_cons]
    exact List.rel_append (h a (List.mem_cons_self _ _) b (List.mem_cons_self _ _) hab)
      (forall₂_flatMap hl fun a' ha' b' hb' => h a' (List.mem_cons_of_mem _ ha') b' (List.mem_cons_of_mem _ hb'))

theorem Pos.Along.rest_eq_span {a b : Pos} (h : a.Along b) : a.rest = (span a b).data ++ b.rest := by
  induction h with
  | refl => simp
  | next h ih => rw [span_cons h]; exact congrArg (List.cons _) ih

section
variable {fl : Flags} {u : List Char}

theorem Pos.Cut.before {q' q : Pos} (h : q'.Cut fl u q) : q.Before u = true := by
  simp [Pos.Before, h.1]

theorem Pos.Cut.singleton {q' q : Pos} (h : q'.Cut fl u q) :
    List.Forall₂ (Pos.Cut fl u) [q'] ([q].filter (Pos.Before u)) := by
  rw [List.filter_cons_of_pos h.before, List.filter_nil]
  exact .cons h .nil

theorem span_cut {a' a b' b : Pos} (ha : a'.Cut fl u a) (hb : b'.Cut fl u b) : span a' b' = span a b := by
  simp only [span, ha.1, hb.1, List.length_append, Nat.add_sub_add_right]
  rw [List.take_append_of_le_length (Nat.sub_le _ _)]

/-- Filtering the ends of the runs from a list of points keeps the runs from the points
    before the cut: what a step reaches from a point past the cut is past it too. -/
theorem filter_flatMap_before {γ : Type} {key : γ → Pos} {f : Pos → List γ}
    (hf : ∀ a x, x ∈ f a → (key x).rest.length ≤ a.rest.length) :
    ∀ l : List Pos, ((l.flatMap f).filter fun x => (key x).Before u) =
      (l.filter (Pos.Before u)).flatMap fun a => (f a).filter fun x => (key x).Before u
  | [] => rfl
  | a :: l => by
    rw [List.flatMap_cons, List.filter_append, filter_flatMap_before hf l, List.filter_cons]
    split_ifs with ha
    · rfl
    · rw [List.filter_eq_nil_iff.2 fun x hx hx' => ha ?_, List.nil_append]
      simp only [Pos.Before, decide_eq_true_eq] at hx' ⊢
      exact hx'.trans (hf a x hx)

theorem filter_flatMap_before_pos {f : Pos → List Pos} (hf : ∀ a b, b ∈ f a → b.rest.length ≤ a.rest.length)
    (l : List Pos) : (l.flatMap f).filter (Pos.Before u) = (l.filter (Pos.Before u)).flatMap fun a => (f a).filter (Pos.Before u) :=
  @filter_flatMap_before u Pos id f hf l

theorem atEol_cons (hml : fl.multiline = true) (prev : Option Char) (c : Char) (cs : List Char) :
    Pos.atEol fl ⟨prev, c :: cs⟩ = (c == '\n') := by
  by_cases hc : c = '\n' <;> simp [Pos.atEol, hml, hc]

theorem consume_cut {ok : Char → Bool} {q' q : Pos} (h : q'.Cut fl u q) :
    List.Forall₂ (Pos.Cut fl u) (q'.consume ok) ((q.consume ok).filter (Pos.Before u)) := by
  obtain ⟨prev', rest'⟩ := q'
  obtain ⟨prev, rest⟩ := q
  obtain ⟨hr, -⟩ := h
  simp only at hr
  subst hr
  cases rest' with
  | nil =>
    cases u with
    | nil => simp [Pos.consume]
    | cons c u => by_cases hc : ok c <;> simp [Pos.consume, hc, Pos.Before]
  | cons c cs => by_cases hc : ok c <;> simp [Pos.consume, hc, Pos.Before, Pos.Cut]

/-- **A repetition on a cut subject**: when one iteration ends at related points, in the
    same order but for the ends past the cut, so does the repetition. -/
theorem starRun_cut {g : Bool} {f : Pos → List Pos} {P : Char → Prop} (hf : ∀ a b, b ∈ f a → a.Reaches P b)
    (hstep : ∀ {a' a : Pos}, a'.Cut fl u a → List.Forall₂ (Pos.Cut fl u) (f a') ((f a).filter (Pos.Before u))) :
    ∀ (n' n : Nat) {p' p : Pos}, p'.Cut fl u p → p'.rest.length < n' → p.rest.length < n →
      List.Forall₂ (Pos.Cut fl u) (starRun g f n' p') ((starRun g f n p).filter (Pos.Before u))
  | 0, _, _, _, _, h', _ => absurd h' (Nat.not_lt_zero _)
  | _ + 1, 0, _, _, _, _, h => absurd h (Nat.not_lt_zero _)
  | n' + 1, n + 1, p', p, h, h', hn => by
    have hshorter : ((f p).filter fun q => q.rest.length < p.rest.length).filter (Pos.Before u) =
        ((f p).filter (Pos.Before u)).filter fun q => q.rest.length < p.rest.length := by
      simp only [List.filter_filter, Bool.and_comm]
    have hmore : List.Forall₂ (Pos.Cut fl u)
        (((f p').filter fun q => q.rest.length < p'.rest.length).flatMap (starRun g f n'))
        ((((f p).filter fun q => q.rest.length < p.rest.length).flatMap (starRun g f n)).filter
          (Pos.Before u)) := by
      rw [filter_flatMap_before_pos (fun a b hb => (mem_starRun hf n a b hb).length_le), hshorter]
      refine forall₂_flatMap (List.rel_filter (fun a' a ha => ?_) (hstep h)) fun a' ha' a ha hcut =>
        starRun_cut hf hstep n' n hcut ?_ ?_
      · simp only [decide_eq_true_eq, ha.1, h.1, List.length_append]
        omega
      · have := of_decide_eq_true (List.mem_filter.1 ha').2
        omega
      · have := of_decide_eq_true (List.mem_filter.1 ha).2
        omega
    cases g
    · simp only [starRun, Bool.false_eq_true, if_false, List.filter_cons_of_pos h.before]
      exact .cons h hmore
    · simp only [starRun, if_true, List.filter_append]
      exact List.rel_append hmore h.singleton

/-- **A regex on a cut subject.**  From related points, a regex whose `$` holds at the
    cut, if it has one, ends at related points, in the same order, except at the ends
    past the cut. -/
theorem run_cut (hml : fl.multiline = true) :
    ∀ (r : Re), (r.eolFree = true ∨ Pos.atEol fl ⟨none, u⟩ = true) →
      ∀ {q' q : Pos}, q'.Cut fl u q → List.Forall₂ (Pos.Cut fl u) (r.run fl q') ((r.run fl q).filter (Pos.Before u))
  | .chr _, _, _, _, h | .cls _, _, _, _, h => consume_cut h
  | .bol, _, q', q, h => by
    have hb : q'.atBol fl = q.atBol fl := by
      rcases h.2 with he | ⟨he, hb⟩
      · simp [Pos.atBol, he]
      · rw [hb]; simp [Pos.atBol, he]
    simp only [Re.run, hb]
    split_ifs
    exacts [h.singleton, .nil]
  | .eol, he, q', q, h => by
    have he' : q'.atEol fl = q.atEol fl := by
      obtain ⟨prev', _ | ⟨c, cs⟩⟩ := q' <;> obtain ⟨prev, rest⟩ := q <;> obtain ⟨hr, -⟩ := h <;>
        simp only [List.nil_append, List.cons_append] at hr <;> subst hr
      · simpa [Re.eolFree, Pos.atEol] using he
      · rw [atEol_cons hml, atEol_cons hml]
    simp only [Re.run, he']
    split_ifs
    exacts [h.singleton, .nil]
  | .seq r s, he, q', q, h => by
    simp only [Re.eolFree, Bool.and_eq_true] at he
    simp only [Re.run]
    rw [filter_flatMap_before_pos fun a b hb => (run_consumes fl s hb).length_le]
    exact forall₂_flatMap (run_cut hml r (he.imp_left And.left) h) fun _ _ _ _ ha =>
      run_cut hml s (he.imp_left And.right) ha
  | .star g r, he, q', q, h =>
    starRun_cut (fun _ _ => run_consumes fl r) (run_cut hml r he) _ _ h (Nat.lt_succ_self _) (Nat.lt_succ_self _)
  | .opt r, he, q', q, h => by
    simp only [Re.run, List.filter_append]
    exact List.rel_append (run_cut hml r he h) h.singleton
  | .eps, _, _, _, h => h.singleton

end

/-- **The matches of a pattern on a cut subject**: from related points, those that end
    before the cut, in the same order. -/
theorem matchesAt_cut {P : Pattern} {u : List Char} (hml : P.flags.multiline = true)
    (he : (P.pre.eolFree && P.grp.eolFree && P.post.eolFree) = true ∨ Pos.atEol P.flags ⟨none, u⟩ = true)
    {p' p : Pos} (h : p'.Cut P.flags u p) :
    List.Forall₂ (Match.Cut P.flags u) (P.matchesAt p') ((P.matchesAt p).filter fun m => m.stop.Before u) := by
  simp only [Bool.and_eq_true] at he
  have hlen : ∀ {r : Re} {a b : Pos}, b ∈ r.run P.flags a → b.rest.length ≤ a.rest.length :=
    fun hb => (run_consumes _ _ hb).length_le
  unfold Pattern.matchesAt
  rw [filter_flatMap_before fun a x hx => ?_]
  · refine forall₂_flatMap (run_cut hml _ (he.imp_left (·.1.1)) h) fun a' _ a _ ha => ?_
    rw [filter_flatMap_before fun b x hx => ?_]
    · refine forall₂_flatMap (run_cut hml _ (he.imp_left (·.1.2)) ha) fun b' _ b _ hb => ?_
      rw [List.filter_map]
      exact List.rel_map (fun e' e he => ⟨h, ha, hb, he⟩) (run_cut hml _ (he.imp_left (·.2)) hb)
    · obtain ⟨e, he, rfl⟩ := List.mem_map.1 hx
      exact hlen he
  · simp only [List.mem_flatMap, List.mem_map] at hx
    obtain ⟨b, hb, e, he, rfl⟩ := hx
    exact (hlen he).trans (hlen hb)

/-- **A match read on its own text.**  Where a multiline pattern whose group must consume
    a character has its first match at the start of a line, and `$` holds at the end of
    the match or the pattern has none, `re.findall` on the text of the match finds the
    match's group and nothing else. -/
theorem findall_span {P : Pattern} (hml : P.flags.multiline = true) (hnil : ∀ prev, P.matchesAt ⟨prev, []⟩ = [])
    {m : Match} (hhead : (P.matchesAt m.start).head? = some m) (hbol : m.start.atBol P.flags = true)
    (he : (P.pre.eolFree && P.grp.eolFree && P.post.eolFree) = true ∨ Pos.atEol P.flags ⟨none, m.stop.rest⟩ = true)
    (hlt : m.stop.rest.length < m.start.rest.length) :
    P.findall (span m.start m.stop) = [m.group] := by
  have hm := (mem_matchesAt_iff.1 (List.mem_of_mem_head? hhead)).2
  have hcut : Pos.Cut P.flags m.stop.rest ⟨none, (span m.start m.stop).data⟩ m.start :=
    ⟨hm.along.rest_eq_span, .inr ⟨rfl, hbol⟩⟩
  obtain ⟨ms, hms⟩ := List.head?_eq_some_iff.1 hhead
  have hf := matchesAt_cut hml he hcut
  rw [hms, List.filter_cons_of_pos (by simp [Pos.Before])] at hf
  obtain ⟨m', ms', hmc, -, hm'⟩ := List.forall₂_cons_right_iff.1 hf
  have hstart : m'.start = ⟨none, (span m.start m.stop).data⟩ :=
    (mem_matchesAt_iff.1 (hm' ▸ List.mem_cons_self _ _)).1
  have hstop : m'.stop.rest = [] := by simpa using hmc.2.2.2.1
  obtain ⟨c, cs, hw⟩ : ∃ c cs, (span m.start m.stop).data = c :: cs := List.exists_cons_of_ne_nil fun hd => by
    have := congrArg List.length hcut.1
    simp only [hd, List.nil_append] at this
    omega
  have hsearch : P.searchFrom none (c :: cs) = some m' := by
    simp only [Pattern.searchFrom, ← hw, hm', List.head?_cons, Option.or_some]
  have hgroup : m'.group = m.group := span_cut hmc.2.1 hmc.2.2.1
  unfold Pattern.findall
  rw [hw, List.length_cons]
  simp only [Pattern.findallFrom, hsearch, hstop, hstart, hw, List.length_cons, List.length_nil,
    Nat.zero_lt_succ, if_true, hgroup]
  cases cs.length <;> simp [Pattern.findallFrom, Pattern.searchFrom, hnil]

end MachSynth
