import DecimalSheet.Evaluation.Dependencies
import Mathlib.Data.List.Chain

/-!
# Cycles on a stack

While cells wait on a stack, each of them has been asked for by the one below it alone. Once the
topmost cell asks for one of them, the dependencies have a cycle, which the walk along the
dependencies finds: it first runs down the stack to its end and comes back, and then runs along the
new edge to the top of the stack and down to the cell from which it set out.

## Main definitions

* `Dependencies.targets es a`: where the edges lead that leave a cell
* `Dependencies.Chains d stack`: each cell on the stack has been asked for by the one below alone

## Main results

* `Dependencies.exists_walk_back`: a walk along an edge to a chain without an end on the path
* `Dependencies.findCycle_record`: the cycle that the topmost cell of a stack closes
-/

namespace DecimalSheet.Dependencies

variable {d : Dependencies} {es es' : List (Address × Address)} {a b c : Address}

/-- The cells to which the edges lead that leave a cell. -/
def targets (es : List (Address × Address)) (a : Address) : List Address :=
  (es.filter (·.1 == a)).map (·.2)

/-! ## Edges of dependencies -/

theorem targets_append (es es' : List (Address × Address)) (a : Address) :
    targets (es ++ es') a = targets es a ++ targets es' a := by
  simp [targets]

theorem targets_map_mk (b : Address) (as : List Address) (a : Address) :
    targets (as.map (Prod.mk b)) a = if b = a then as else [] := by
  split <;> simp_all [targets, List.filter_map, Function.comp_def]

variable {entries : List (Address × List Address)}

theorem targets_flatMap_of_forall_ne (h : ∀ entry ∈ entries, entry.1 ≠ a) :
    targets (entries.flatMap fun entry => entry.2.map (Prod.mk entry.1)) a = [] := by
  induction entries with
  | nil => rfl
  | cons entry entries ih =>
    obtain ⟨hentry, hrest⟩ := List.forall_mem_cons.1 h
    rw [List.flatMap_cons, targets_append, targets_map_mk, if_neg hentry, ih hrest]
    rfl

theorem targets_flatMap_of_mem {as : List Address} (hdistinct : entries.Pairwise (·.1 ≠ ·.1))
    (h : (a, as) ∈ entries) :
    targets (entries.flatMap fun entry => entry.2.map (Prod.mk entry.1)) a = as := by
  induction entries with
  | nil => cases h
  | cons entry entries ih =>
    obtain ⟨hentry, hrest⟩ := List.pairwise_cons.1 hdistinct
    rw [List.flatMap_cons, targets_append, targets_map_mk]
    -- The entry of `a` is the first one, or none of the first one's edges leaves `a`.
    rcases List.mem_cons.1 h with rfl | hmem
    · rw [if_pos rfl, targets_flatMap_of_forall_ne fun entry hmem => (hentry entry hmem).symm,
        List.append_nil]
    · rw [if_neg (hentry _ hmem), ih hrest hmem, List.nil_append]

/-- The edges that are walked lead from a cell to those that have asked for it. -/
theorem targets_walkedEdges (d : Dependencies) (a : Address) :
    targets d.walkedEdges a = d.dependantsOf a := by
  unfold walkedEdges dependantsOf
  rw [Std.TreeMap.getD_eq_getD_getElem?]
  cases has : d.dependants[a]? with
  | none =>
    refine targets_flatMap_of_forall_ne ?_
    rintro ⟨b, bs⟩ hmem rfl
    rw [Std.TreeMap.mem_toList_iff_getElem?_eq_some, has] at hmem
    cases hmem
  | some as =>
    -- No other entry has edges from `a`, since the keys of a map are distinct.
    have hdistinct : d.dependants.toList.Pairwise (·.1 ≠ ·.1) := by
      refine Std.TreeMap.distinct_keys_toList.imp fun hne heq => hne ?_
      rw [heq, Std.LawfulEqCmp.compare_eq_iff_eq]
    exact targets_flatMap_of_mem hdistinct (Std.TreeMap.mem_toList_iff_getElem?_eq_some.2 has)

theorem exists_of_targets_cons {as : List Address} (h : targets es a = b :: as) :
    ∃ rest, es.filter (·.1 == a) = (a, b) :: rest ∧ rest.map (·.2) = as := by
  obtain ⟨⟨a', b'⟩, rest, hfilter, hb, has⟩ := List.map_eq_cons_iff.1 h
  have hmem : (a', b') ∈ es.filter (·.1 == a) := by simp [hfilter]
  have ha := List.of_mem_filter hmem
  simp only [beq_iff_eq] at ha hb
  subst ha hb
  exact ⟨rest, hfilter, has⟩

theorem targets_erase_self {as : List Address} (h : targets es a = b :: as) :
    targets (es.erase (a, b)) a = as := by
  obtain ⟨rest, hfilter, has⟩ := exists_of_targets_cons h
  rw [targets, ← List.erase_filter, hfilter, List.erase_cons_head, has]

theorem targets_erase_of_ne (h : c ≠ a) : targets (es.erase (a, b)) c = targets es c := by
  have hnot : (a, b) ∉ es.filter (·.1 == c) := by simp [Ne.symm h]
  rw [targets, ← List.erase_filter, List.erase_of_not_mem hnot, targets]

/-! ## Walks -/

variable {before : List Address}

theorem walk_of_targets_nil (h : targets es a = []) : walk es (a :: before) = walk es before := by
  have hfind : es.find? (·.1 == a) = none := by
    rw [← List.head?_filter, List.map_eq_nil_iff.1 h]
    rfl
  rw [walk]
  split
  · rfl
  · simp_all

theorem walk_of_targets_cons {as : List Address} (h : targets es a = b :: as) :
    walk es (a :: before) =
      if b ∈ a :: before then loopFrom (a :: before) b
      else walk (es.erase (a, b)) (b :: a :: before) := by
  obtain ⟨rest, hfilter, -⟩ := exists_of_targets_cons h
  have hfind : es.find? (·.1 == a) = some (a, b) := by
    rw [← List.head?_filter, hfilter]
    rfl
  rw [walk]
  split
  · simp_all
  · rename_i edge hedge
    obtain rfl := Option.some.inj (hfind.symm.trans hedge)
    rfl

/-- The only edge from each of the cells leads to the next one. -/
def Leads (es : List (Address × Address)) (cells : List Address) : Prop :=
  cells.IsChain fun a b => targets es a = [b]

theorem Leads.congr {cells : List Address} (h : Leads es cells)
    (heq : ∀ a ∈ cells.dropLast, targets es' a = targets es a) : Leads es' cells := by
  induction h with
  | nil => exact .nil
  | singleton => exact .singleton _
  | cons_cons hab _ ih =>
    rw [List.dropLast_cons_cons, List.forall_mem_cons] at heq
    exact .cons_cons (heq.1.trans hab) (ih heq.2)

/-- A walk along the older edge from a cell, to a chain of cells, runs down the chain to its end
and comes back to the cell. It has used up the edge and those of the chain only. -/
theorem exists_walk_back {as rest : List Address} (h : targets es a = b :: as)
    (hrest : Leads es (b :: rest)) (hend : ∀ c ∈ (b :: rest).getLast?, targets es c = [])
    (hnodup : (a :: b :: rest).Nodup) (hbefore : ∀ c ∈ b :: rest, c ∉ before) :
    ∃ es', walk es (a :: before) = walk es' (a :: before) ∧ targets es' a = as ∧
      ∀ c, c ∉ a :: b :: rest → targets es' c = targets es c := by
  -- Induction on the chain below `b`: the walk comes back to `b` first, where no edge is left.
  induction rest generalizing a b as before es with
  | nil =>
    have hba : b ≠ a := (List.ne_of_not_mem_cons (List.nodup_cons.1 hnodup).1).symm
    have hb : b ∉ a :: before :=
      List.not_mem_cons_of_ne_of_not_mem hba (hbefore b List.mem_cons_self)
    refine ⟨es.erase (a, b), ?_, targets_erase_self h, fun c hc => ?_⟩
    · rw [walk_of_targets_cons h, if_neg hb, walk_of_targets_nil]
      rw [targets_erase_of_ne hba]
      exact hend b rfl
    · exact targets_erase_of_ne (List.ne_of_not_mem_cons hc)
  | cons c rest ih =>
    obtain ⟨hbc, hrest⟩ := List.isChain_cons_cons.1 hrest
    obtain ⟨ha, hnodup⟩ := List.nodup_cons.1 hnodup
    have hne : ∀ x ∈ b :: c :: rest, x ≠ a := fun x hx hxa => ha (hxa ▸ hx)
    have hbefore' : ∀ x ∈ b :: c :: rest, x ∉ a :: before := fun x hx =>
      List.not_mem_cons_of_ne_of_not_mem (hne x hx) (hbefore x hx)
    have herase : ∀ x, x ≠ a → targets (es.erase (a, b)) x = targets es x :=
      fun x hx => targets_erase_of_ne hx
    have hbc' : targets (es.erase (a, b)) b = [c] :=
      (herase b (hne b List.mem_cons_self)).trans hbc
    have hrest' : Leads (es.erase (a, b)) (c :: rest) :=
      Leads.congr hrest fun x hx =>
        herase x (hne x (List.mem_cons_of_mem b (List.dropLast_subset _ hx)))
    have hend' : ∀ x ∈ (c :: rest).getLast?, targets (es.erase (a, b)) x = [] := by
      intro x hx
      rw [herase x (hne x (List.mem_cons_of_mem b (List.mem_of_getLast? hx)))]
      exact hend x (by rwa [List.getLast?_cons_cons])
    obtain ⟨es', hwalk, hb, htargets⟩ := ih hbc' hrest' hend' hnodup
      fun x hx => hbefore' x (List.mem_cons_of_mem b hx)
    refine ⟨es', ?_, ?_, fun x hx => ?_⟩
    · rw [walk_of_targets_cons h, if_neg (hbefore' b List.mem_cons_self), hwalk,
        walk_of_targets_nil hb]
    · rw [htargets a ha, targets_erase_self h]
    · rw [List.mem_cons, not_or] at hx
      rw [htargets x hx.2, herase x hx.1]

/-- A walk along a chain of cells to a cell on its path finds the cycle. -/
theorem walk_up {rest : List Address} (h : Leads es (b :: rest ++ [a]))
    (hnodup : (b :: rest).Nodup) (hbefore : ∀ c ∈ b :: rest, c ∉ before) (ha : a ∈ before) :
    walk es (b :: before) = loopFrom ((b :: rest).reverse ++ before) a := by
  induction rest generalizing b before es with
  | nil =>
    -- the edge leads to the path
    have hba := (List.isChain_cons_cons.1 h).1
    rw [walk_of_targets_cons hba, if_pos (List.mem_cons_of_mem b ha)]
    rfl
  | cons c rest ih =>
    -- the edge leads on, and the edges behind it are those of before
    obtain ⟨hbc, hrest⟩ := List.isChain_cons_cons.1 h
    obtain ⟨hb, hnodup⟩ := List.nodup_cons.1 hnodup
    have hne : ∀ x ∈ c :: rest, x ≠ b := fun x hx hxb => hb (hxb ▸ hx)
    have hc : c ∉ b :: before :=
      List.not_mem_cons_of_ne_of_not_mem (hne c List.mem_cons_self) (hbefore c (by simp))
    have hrest' : Leads (es.erase (b, c)) (c :: rest ++ [a]) := by
      refine Leads.congr hrest fun x hx => targets_erase_of_ne (hne x ?_)
      rwa [List.dropLast_concat] at hx
    have hbefore' : ∀ x ∈ c :: rest, x ∉ b :: before := fun x hx =>
      List.not_mem_cons_of_ne_of_not_mem (hne x hx) (hbefore x (List.mem_cons_of_mem b hx))
    rw [walk_of_targets_cons hbc, if_neg hc,
      ih hrest' hnodup hbefore' (List.mem_cons_of_mem b ha)]
    simp

/-! ## Stacks -/

/-- Each cell on the stack has been asked for by the one below alone, and the last one by none. -/
structure Chains (d : Dependencies) (stack : List Address) : Prop where
  isChain : stack.IsChain fun a b => d.dependantsOf a = [b]
  last : ∀ a ∈ stack.getLast?, d.dependantsOf a = []

variable {stack : List Address}

theorem chains_nil : d.Chains [] := ⟨.nil, fun _ h => by cases h⟩

theorem Chains.tail (h : d.Chains (a :: stack)) : d.Chains stack := by
  cases stack with
  | nil => exact chains_nil
  | cons b stack =>
    exact ⟨(List.isChain_cons_cons.1 h.isChain).2, fun c hc =>
      h.last c (by rwa [List.getLast?_cons_cons])⟩

theorem Chains.congr {d' : Dependencies} (h : d.Chains stack)
    (heq : ∀ a ∈ stack, d'.dependantsOf a = d.dependantsOf a) : d'.Chains stack where
  isChain := h.isChain.imp_of_mem_imp fun a _ ha _ hab => (heq a ha).trans hab
  last a ha := (heq a (List.mem_of_getLast? ha)).trans (h.last a ha)

/-- A cell that nobody has asked for is put on a stack. -/
theorem chains_singleton (h : d.dependantsOf a = []) : d.Chains [a] :=
  ⟨.singleton a, by simpa using h⟩

theorem Chains.cons (h : d.Chains (b :: stack)) (hab : d.dependantsOf a = [b]) :
    d.Chains (a :: b :: stack) :=
  ⟨.cons_cons hab h.isChain, fun c hc => h.last c (by rwa [List.getLast?_cons_cons] at hc)⟩

theorem dependantsOf_record {p : Address} :
    (d.record p c).dependantsOf a =
      if a = p then extend (d.dependantsOf p) c else d.dependantsOf a := by
  simp only [record, dependantsOf, Std.TreeMap.getD_insert, Std.LawfulEqCmp.compare_eq_iff_eq,
    @eq_comm _ a]

theorem loopFrom_reverse_append {upper : List Address} (ha : a ∉ upper) :
    loopFrom (upper.reverse ++ [a]) a = a :: upper := by
  have htake : (upper.reverse ++ [a]).takeWhile (· != a) = upper.reverse := by
    rw [List.takeWhile_append_of_pos]
    · simp
    · intro b hb
      have hne : b ≠ a := fun hba => ha (hba ▸ List.mem_reverse.1 hb)
      simpa using hne
  rw [loopFrom, htake]
  simp

/-- A walk along the one edge from a cell to the top of a stack, and down the stack to the cell. -/
theorem walk_of_targets_top {upper : List Address} (h : targets es a = [c])
    (hc : (upper ++ [a]).head? = some c) (hleads : Leads es (upper ++ [a]))
    (hnodup : (a :: upper).Nodup) : walk es [a] = a :: upper := by
  obtain ⟨ha, hupper⟩ := List.nodup_cons.1 hnodup
  rw [walk_of_targets_cons h]
  cases upper with
  | nil =>
    obtain rfl : a = c := by simpa using hc
    rw [if_pos List.mem_cons_self]
    exact loopFrom_reverse_append ha
  | cons b upper =>
    -- The edge is used up, but the chain down to `a` has no need of it.
    obtain rfl : b = c := by simpa using hc
    have hne : ∀ x ∈ b :: upper, x ≠ a := fun x hx hxa => ha (hxa ▸ hx)
    have hleads' : Leads (es.erase (a, b)) (b :: upper ++ [a]) := by
      refine Leads.congr hleads fun x hx => targets_erase_of_ne (hne x ?_)
      rwa [List.dropLast_concat] at hx
    have hbefore : ∀ x ∈ b :: upper, x ∉ [a] := fun x hx => by simpa using hne x hx
    rw [if_neg (hbefore b List.mem_cons_self),
      walk_up hleads' hupper hbefore (List.mem_singleton.2 rfl), loopFrom_reverse_append ha]

/-- The topmost cell of a stack asks for a cell on the stack: the cycle that is found consists of
that cell and of the cells above it, from the top downwards. -/
theorem findCycle_record {upper lower : List Address} (h : d.Chains (upper ++ a :: lower))
    (hnodup : (upper ++ a :: lower).Nodup) (hc : (upper ++ [a]).head? = some c) :
    (d.record a c).findCycle a = a :: upper := by
  obtain ⟨hupper, hlower⟩ := List.isChain_split.1 h.isChain
  obtain ⟨hnodupUpper, hnodupLower, hdisjoint⟩ := List.nodup_append.1 hnodup
  obtain ⟨haLower, hnodupLower⟩ := List.nodup_cons.1 hnodupLower
  have haUpper : a ∉ upper := fun ha => hdisjoint a ha a List.mem_cons_self rfl
  have htargets : ∀ x, x ≠ a → targets (d.record a c).walkedEdges x = targets d.walkedEdges x := by
    intro x hx
    rw [targets_walkedEdges, targets_walkedEdges, dependantsOf_record, if_neg hx]
  have htop : targets (d.record a c).walkedEdges a = extend (d.dependantsOf a) c := by
    rw [targets_walkedEdges, dependantsOf_record, if_pos rfl]
  have hleads : Leads d.walkedEdges (upper ++ [a]) := by
    simpa only [Leads, targets_walkedEdges] using hupper
  have hne : ∀ x ∈ upper, x ≠ a := fun x hx hxa => haUpper (hxa ▸ hx)
  unfold findCycle
  cases lower with
  | nil =>
    -- The new edge is the only one from `a`.
    rw [h.last a (by simp)] at htop
    refine walk_of_targets_top htop hc (Leads.congr hleads fun x hx => htargets x (hne x ?_))
      (List.nodup_cons.2 ⟨haUpper, hnodupUpper⟩)
    rwa [List.dropLast_concat] at hx
  | cons b lower =>
    -- The cell below has asked for `a` before, and it is not `c`, which stands further up.
    have hab := (List.isChain_cons_cons.1 hlower).1
    have hcLower : c ∉ b :: lower := by
      intro hcLower
      rcases List.mem_append.1 (List.mem_of_mem_head? hc) with hcUpper | hca
      · exact hdisjoint c hcUpper c (List.mem_cons_of_mem a hcLower) rfl
      · exact haLower (List.mem_singleton.1 hca ▸ hcLower)
    have hcb : c ≠ b := fun hcb => hcLower (hcb ▸ List.mem_cons_self)
    have hlowerNe : ∀ x ∈ b :: lower, x ≠ a := fun x hx hxa => haLower (hxa ▸ hx)
    rw [hab, extend, if_neg (by simpa using hcb)] at htop
    -- The walk runs down to the last cell of the stack first, since that edge is older.
    have hdown : Leads (d.record a c).walkedEdges (b :: lower) := by
      have hold : Leads d.walkedEdges (b :: lower) := by
        simpa only [Leads, targets_walkedEdges] using (List.isChain_cons_cons.1 hlower).2
      exact hold.congr fun x hx => htargets x (hlowerNe x (List.dropLast_subset _ hx))
    have hend : ∀ x ∈ (b :: lower).getLast?, targets (d.record a c).walkedEdges x = [] := by
      intro x hx
      rw [htargets x (hlowerNe x (List.mem_of_getLast? hx)), targets_walkedEdges]
      exact h.last x (by simpa [List.getLast?_append] using hx)
    obtain ⟨es, hwalk, hes, hothers⟩ := exists_walk_back htop hdown hend
      (List.nodup_cons.2 ⟨haLower, hnodupLower⟩) fun x _ => List.not_mem_nil
    -- Back at `a` only the new edge is left, and the edges above `a` are untouched.
    rw [hwalk]
    refine walk_of_targets_top hes hc (Leads.congr hleads fun x hx => ?_)
      (List.nodup_cons.2 ⟨haUpper, hnodupUpper⟩)
    rw [List.dropLast_concat] at hx
    have hxLower : x ∉ b :: lower := fun hxLower =>
      hdisjoint x hx x (List.mem_cons_of_mem a hxLower) rfl
    rw [hothers x (List.not_mem_cons_of_ne_of_not_mem (hne x hx) hxLower), htargets x (hne x hx)]

end DecimalSheet.Dependencies
