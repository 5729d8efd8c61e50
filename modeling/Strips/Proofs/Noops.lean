import Strips.Proofs.ActionExclusions

/-!
# Keeping facts on a workbench

For each literal of a fact layer an action is built that keeps it. The literal of a constant fact is
the precondition and the effect of this action, unless its name is that of the constraints. Then the
action has no precondition, but the two cells of the literal are marked distinct, which may be
refused. A mark between constants changes nothing that a schema can see, if the cells are none of
its own.

## Main definitions

* `Arena.ConstantsIn` – the constants of one arena are constants of another one.
* `Arena.Remarked` – an arena in which only marks of some cells are others.
* `Bench.Fails` – an operation fails.

## Main results

* `Schema.Placed.of_remarked` – schemas stand where they stood.
* `Bench.noop_cases`, `Bench.noops_cases` – one fact, and all facts of a layer.
-/

namespace Strips

/-! ### Constants of an arena -/

/-- The constants of one arena are constants of another one, with the same values. -/
structure Arena.ConstantsIn (a c : Arena) : Prop where
  isConstant : ∀ k, a.isConstant k = true → c.isConstant k = true
  value? : ∀ k, a.isConstant k = true → c.value? k = a.value? k

theorem Arena.Sound.keeps {b : Workbench} (h : b.arena.Sound) : b.Keeps b.arena :=
  fun k hk => ⟨h.isSome_constant k hk, rfl⟩

/-- A constant literal says the same wherever the constants have the same values. -/
theorem Literal.shown_congr {c c' : Arena} {l : Literal} (hl : l.isConstant c = true)
    (hvalue : ∀ k, c.isConstant k = true → c'.value? k = c.value? k) : l.shown c' = l.shown c := by
  refine congrArg (Fact.mk l.name) ?_
  rw [Literal.values, Literal.values, List.map_map, List.map_map]
  refine List.map_congr_left fun t ht => ?_
  have ht := List.all_eq_true.1 hl t ht
  cases t with
  | const v => rfl
  | cell k => exact congrArg Term.valueText (hvalue k ht)

/-- Noting a pair of constant literals does not depend on the workbench. -/
theorem Exclusions.Says.insert_eq {a : Arena} {x : Exclusions} {r : PairRelation Fact}
    (hx : x.Says a r) {b c : Workbench} (hb : b.Keeps a) (hc : c.Keeps a) {l m : Literal}
    (hl : l.isConstant a = true) (hm : m.isConstant a = true) :
    x.insert b (.literal l) (.literal m) = x.insert c (.literal l) (.literal m) := by
  have hfinds : x.finds b (Literal.pair a l m) = x.finds c (Literal.pair a l m) := by
    rw [← Workbench.exclusion_literal hb hl hm, ← Exclusions.contains, hx.contains hb hl hm,
      Workbench.exclusion_literal hb hl hm, ← Workbench.exclusion_literal hc hl hm,
      ← Exclusions.contains, hx.contains hc hl hm]
  rw [Exclusions.insert, Exclusions.insert, Workbench.exclusion_literal hb hl hm,
    Workbench.exclusion_literal hc hl hm, hfinds]

namespace Arena.ConstantsIn

variable {a c d : Arena} (h : a.ConstantsIn c)

theorem refl (a : Arena) : a.ConstantsIn a := ⟨fun _ => id, fun _ _ => rfl⟩

/-- An arena without cells has no constants. -/
theorem empty (a : Arena) : Arena.empty.ConstantsIn a := ⟨fun _ => nofun, fun _ => nofun⟩

include h

theorem trans (h' : c.ConstantsIn d) : a.ConstantsIn d := by
  refine ⟨fun k hk => h'.isConstant k (h.isConstant k hk), fun k hk => ?_⟩
  rw [h'.value? k (h.isConstant k hk), h.value? k hk]

theorem keeps {b : Workbench} (hb : b.Keeps c) : b.Keeps a := by
  intro k hk
  rw [← h.value? k hk]
  exact hb k (h.isConstant k hk)

theorem isConstant_literal {l : Literal} (hl : l.isConstant a = true) :
    l.isConstant c = true := by
  refine List.all_eq_true.2 fun t ht => ?_
  have ht := List.all_eq_true.1 hl t ht
  cases t with
  | const v => rfl
  | cell k => exact h.isConstant k ht

theorem shown {l : Literal} (hl : l.isConstant a = true) : l.shown c = l.shown a :=
  Literal.shown_congr hl h.value?

theorem exclusions (hc : c.Sound) {x : Exclusions} {r : PairRelation Fact} (hx : x.Says a r) :
    x.Says c r := by
  have hkeeps : Workbench.Keeps { arena := c } c := Arena.Sound.keeps (b := { arena := c }) hc
  induction hx with
  | empty => exact .empty
  | insert hx hb hl hm ih =>
    rw [← h.shown hl, ← h.shown hm, hx.insert_eq hb (h.keeps hkeeps) hl hm]
    exact .insert ih hkeeps (h.isConstant_literal hl) (h.isConstant_literal hm)

end Arena.ConstantsIn

/-! ### Marks -/

namespace Arena

/-- A sound arena in which only the marks of the given cells may be others. -/
structure Remarked (a : Arena) (cells : List Nat) (b : Arena) : Prop where
  sound : b.Sound
  same : a.SameClasses b
  value? : b.value? = a.value?
  partners : ∀ k ∉ cells, ∀ m, m ∈ b.partners k ↔ m ∈ a.partners k

variable {a b c : Arena} {cells others : List Nat}

theorem Sound.remarked (h : a.Sound) (cells : List Nat) : a.Remarked cells a :=
  ⟨h, .refl a, rfl, fun _ _ _ => Iff.rfl⟩

theorem Remarked.trans (h : a.Remarked cells b) (h' : b.Remarked others c) :
    a.Remarked (cells ++ others) c := by
  refine ⟨h'.sound, h.same.trans h'.same, h'.value?.trans h.value?, fun k hk m => ?_⟩
  rw [List.mem_append, not_or] at hk
  rw [h'.partners k hk.2, h.partners k hk.1]

theorem Remarked.constantsIn (h : a.Remarked cells b) : a.ConstantsIn b :=
  ⟨fun _ hk => by rw [h.same.isConstant, hk], fun _ _ => congrFun h.value? _⟩

theorem Sound.remarked_of_markDistinct (h : a.Sound) {i j : Nat} (hi : i < a.size) (hj : j < a.size)
    (hmark : a.markDistinct i j = .ok b) : a.Remarked [i, j] b := by
  have hscope : a.scope i = a.scope j := by
    by_contra hne
    rw [Arena.markDistinct, if_pos hne] at hmark
    cases hmark
  have hroot : a.root i ≠ a.root j := by
    intro heq
    rw [Arena.markDistinct, if_neg (not_not.2 hscope), if_pos heq] at hmark
    cases hmark
  obtain ⟨b', hb', hsound, hsame, hvalue, hpartners⟩ := h.markDistinct hi hj hscope hroot
  obtain rfl : b' = b := Except.ok.inj (hb'.symm.trans hmark)
  refine ⟨hsound, hsame, hvalue, fun k hk m => ?_⟩
  simp only [List.mem_cons, List.not_mem_nil, or_false, not_or] at hk
  simp [hpartners, hk.1, hk.2]

end Arena

/-- A schema stands where it stood if none of its cells got a mark. -/
theorem Schema.Placed.of_remarked {s : Schema} {b c : Arena} {offset : Nat} {cells : List Nat}
    (h : s.Placed b offset) (hc : b.Remarked cells c)
    (hcells : ∀ k ∈ cells, k < offset ∨ offset + s.arena.size ≤ k) : s.Placed c offset := by
  have hosts := h.hosts
  refine ⟨⟨hosts.loose, hosts.isSome_value?, hc.sound, ?_, fun i hi => ?_, fun i hi => ?_,
    fun i hi => ?_, fun i hi k => ?_⟩, fun i hi hconstant hparameter => ?_⟩
  · rw [hc.same.size]
    exact hosts.fits
  · rw [hc.same.members, hosts.members i hi]
  · rw [hc.same.isConstant, hosts.isConstant i hi]
  · rw [hc.value?, hosts.value? i hi]
  · have hmem : i + offset ∉ cells := by
      intro hmem
      have := hcells _ hmem
      omega
    rw [hc.partners _ hmem, hosts.mem_partners i hi]
  · rw [hc.value?, h.unbound i hi hconstant hparameter]

/-! ### The action that keeps a literal -/

theorem Literal.freeCells_of_isConstant {c : Arena} {l : Literal} (hl : l.isConstant c = true) :
    l.freeCells c = [] := by
  refine (congrArg List.eraseDups (List.filterMap_eq_nil_iff.2 fun t ht => ?_)).trans rfl
  cases t with
  | const v => rfl
  | cell i => exact if_pos (List.all_eq_true.1 hl _ ht)

/-- Keeping a fact that is named like the constraints. -/
theorem Step.keep_of_name_eq {f : Fact} (hf : f.name = distinctName) :
    Step.keep f = if f.arguments.length = 2 then .ok ⟨noopName, true, f.arguments, [], [], [f]⟩
      else .error (.distinctArity noopName f.arguments.length) := by
  rw [Step.keep, if_pos hf]

/-- The cells of a literal that are marked when it is kept. -/
def Literal.marked (l : Literal) : List Nat := if l.name = distinctName then l.cells else []

namespace Action

/-- The action over one literal, before its precondition is looked at. -/
def keeping (l : Literal) : Action := { name := noopName, noop := true, positive := ⟨[l]⟩ }

theorem build_noop (c : Arena) (l : Literal) : build c noopName [l] [] [l] true =
    match (keeping l).addPreconditions c [l] with
    | (.error e, c') => (.error e, c')
    | (.ok x, c') =>
      match x.freeEffect? c' with
      | some m => (.error (.freeEffect noopName (m.text c')), c')
      | none => (.ok { x with parameters := x.collectParameters c' }, c') := rfl

/-- Marking is refused between cells only. -/
theorem exists_cells_of_markPair {c : Arena} {s t : Term} {e : BindingError}
    (h : markPair c s t = .error e) : ∃ i j, s = .cell i ∧ t = .cell j := by
  cases s with
  | const v => cases h
  | cell i =>
    cases t with
    | const w => cases h
    | cell j => exact ⟨i, j, rfl, rfl⟩

/-- What is done with the literal as its own precondition, if it is named like the constraints. -/
theorem addPreconditions_keeping (c : Arena) {l : Literal} (hname : l.name = distinctName) :
    (keeping l).addPreconditions c [l] =
      match l.terms with
      | [s, t] =>
        match markPair c s t with
        | .ok c' => (.ok { keeping l with distinct := [(s, t)] }, c')
        | .error e => (.error (.distinctRefused noopName e), c)
      | terms => (.error (.distinctArity noopName terms.length), c) := by
  rw [addPreconditions, if_pos hname]
  rfl

theorem noopOf_eq_error {c c' : Arena} {l : Literal} {e : SchemaError}
    (hadd : (keeping l).addPreconditions c [l] = (.error e, c')) :
    noopOf c l = (.error e, c') := by
  rw [noopOf, build_noop, hadd]

/-- **What is built** once the precondition was looked at says the step with what is left of it. -/
theorem exists_noopOf_eq {b : Workbench} {a c : Arena} (hb : b.Keeps a) {l : Literal}
    (hl : l.isConstant a = true) (hl' : l.isConstant b.arena = true) {pre : List Literal}
    {d : List (Term × Term)} (hpre : ∀ m ∈ pre, m = l)
    (hadd : (keeping l).addPreconditions c [l] =
      (.ok { keeping l with preconditions := ⟨pre⟩, distinct := d }, b.arena)) :
    ∃ x, noopOf c l = (.ok x, b.arena) ∧ x.Says a
      ⟨noopName, true, (l.shown a).arguments, pre.map (·.shown a), [], [l.shown a]⟩ := by
  let x : Action := { keeping l with preconditions := ⟨pre⟩, distinct := d }
  have hfree : x.freeEffect? b.arena = none := by
    simp [x, freeEffect?, keeping, Literal.freeCells_of_isConstant hl']
  have hnoop : noopOf c l = (.ok ({ x with parameters := x.collectParameters b.arena }.freeze
      b.arena (l.values b.arena)), b.arena) := by
    have hadd : (keeping l).addPreconditions c [l] = (.ok x, b.arena) := hadd
    rw [noopOf, build_noop, hadd]
    simp only [hfree]
  have hkey := Workbench.key_eq_literal_key hb hl
  have hvalues : l.values b.arena = (l.shown a).arguments.map some :=
    congrArg Prod.snd (Literal.key_of_isConstant hb hl)
  have hkeys : pre.map (·.key b.arena) =
      ((pre.map (·.shown a)).map Fact.literal).map (·.key .empty) := by
    rw [List.map_map, List.map_map]
    exact List.map_congr_left fun m hm => (hpre m hm).symm ▸ hkey
  refine ⟨_, hnoop, rfl, rfl, ?_, fun m hm => ?_, rfl, rfl, rfl⟩
  · simp [x, freeze, keeping, Step.key, hvalues, hkeys, hkey]
  · have hml : m = l := by
      rcases mem_literals.1 hm with hm | hm | hm
      · exact hpre m hm
      · cases hm
      · exact List.mem_singleton.1 hm
    rw [hml]
    exact hl

end Action

namespace Bench

variable {α β : Type} {b b' : Workbench}

/-- The operation fails. -/
def Fails (m : Bench α) (b : Workbench) (e : BenchError) : Prop :=
  ∃ b', m.run.run b = (.error e, b')

theorem Fails.bind {m : Bench α} {f : α → Bench β} {e : BenchError} (h : Fails m b e) :
    Fails (m >>= f) b e := by
  obtain ⟨b', h⟩ := h
  refine ⟨b', ?_⟩
  rw [run_bind, h]

theorem Gives.bind_fails {m : Bench α} {f : α → Bench β} {x : α} {e : BenchError}
    (h : Gives m b x b') (hf : Fails (f x) b' e) : Fails (m >>= f) b e := by
  obtain ⟨b'', hf⟩ := hf
  exact ⟨b'', h.run_bind.trans hf⟩

/-! ### Keeping one literal -/

variable {a : Arena}

theorem gives_noop {l : Literal} {x : Action} {c : Arena}
    (h : Action.noopOf b.arena l = (.ok x, c)) :
    Gives (noop l) b b.items.size { b with arena := c, items := b.items.push (.action x) } := by
  refine gives_arena.bind ?_
  rw [h]
  exact (gives_setArena c).bind (gives_add _)

theorem fails_noop {l : Literal} {e : SchemaError} {c : Arena}
    (h : Action.noopOf b.arena l = (.error e, c)) : Fails (noop l) b (.schema e) := by
  refine gives_arena.bind_fails ?_
  rw [h]
  exact (gives_setArena c).bind_fails ⟨_, rfl⟩

/-- Marking the terms of a constant literal changes no marks but those of its cells. -/
theorem remarked_of_markPair {c c' : Arena} (hc : c.Sound) {l : Literal}
    (hl : l.isConstant c = true) (hname : l.name = distinctName) {s t : Term}
    (hterms : l.terms = [s, t]) (hmark : Action.markPair c s t = .ok c') :
    c.Remarked l.marked c' := by
  rw [Literal.marked, if_pos hname]
  have hlt : ∀ i, .cell i ∈ l.terms → i < c.size := fun i hi =>
    Arena.lt_size_of_isConstant (List.all_eq_true.1 hl _ hi)
  rw [hterms] at hlt
  cases s with
  | const v =>
    obtain rfl : c = c' := Except.ok.inj hmark
    exact hc.remarked _
  | cell i =>
    cases t with
    | const w =>
      obtain rfl : c = c' := Except.ok.inj hmark
      exact hc.remarked _
    | cell j =>
      have hcells : l.cells = [i, j] := by simp [Literal.cells, hterms]
      rw [hcells]
      exact hc.remarked_of_markDistinct (hlt i (by simp)) (hlt j (by simp)) hmark

theorem gives_noop_of_addPreconditions (hb : b.Keeps a) {l : Literal} (hl : l.isConstant a = true)
    {c : Arena} (hl' : l.isConstant c = true) (hvalue : c.value? = b.arena.value?)
    {pre : List Literal} {d : List (Term × Term)} (hpre : ∀ m ∈ pre, m = l)
    (hadd : (Action.keeping l).addPreconditions b.arena [l] =
      (.ok { Action.keeping l with preconditions := ⟨pre⟩, distinct := d }, c)) :
    ∃ h b', Gives (noop l) b h b' ∧ b'.arena = c ∧ b.Leaves b' [] ∧ b'.IsStep a h
      ⟨noopName, true, (l.shown a).arguments, pre.map (·.shown a), [], [l.shown a]⟩ := by
  have hc : Workbench.Keeps { b with arena := c } a := by
    intro k hk
    show (a.value? k).isSome = true ∧ c.value? k = a.value? k
    rw [hvalue]
    exact hb k hk
  obtain ⟨x, hx, hmeans⟩ := Action.exists_noopOf_eq hc hl hl' hpre hadd
  exact ⟨_, _, gives_noop hx, rfl, fun _ _ hit _ => Workbench.getElem?_push_of_some hit, x,
    Array.getElem?_push_size, hmeans⟩

/-- **Keeping one literal.** Either an action of its step is there, and at most its cells got marks,
or it is named like the constraints and cannot be kept. A literal without cells is refused exactly
as the fact is. -/
theorem noop_cases (hsound : b.arena.Sound) (ha : a.ConstantsIn b.arena) {l : Literal}
    (hl : l.isConstant a = true) :
    (l.name = distinctName ∧ ∃ e, Fails (noop l) b (.schema e) ∧
      (l.cells = [] → Step.keep (l.shown a) = .error e)) ∨
    ∃ h b' t, Gives (noop l) b h b' ∧ Step.keep (l.shown a) = .ok t ∧ b'.IsStep a h t ∧
      b.Leaves b' [] ∧ b.arena.Remarked l.marked b'.arena := by
  have hb := ha.keeps hsound.keeps
  have hl' := ha.isConstant_literal hl
  have hname : (l.shown a).name = l.name := rfl
  have hlength : (l.shown a).arguments.length = l.terms.length := by
    simp [Literal.shown, Literal.values]
  by_cases hdistinct : l.name = distinctName
  · have hadd := Action.addPreconditions_keeping b.arena hdistinct
    have hkeep := Step.keep_of_name_eq (hname.trans hdistinct)
    rcases hterms : l.terms with _ | ⟨s, _ | ⟨t, _ | ⟨u, rest⟩⟩⟩
    case cons.cons.nil =>
      rw [hterms] at hadd hlength
      rw [if_pos (by simpa using hlength)] at hkeep
      cases hmark : Action.markPair b.arena s t with
      | error e =>
        simp only [hmark] at hadd
        refine .inl ⟨hdistinct, _, fails_noop (Action.noopOf_eq_error hadd), fun hcells => ?_⟩
        -- only cells are marked
        obtain ⟨i, j, rfl, rfl⟩ := Action.exists_cells_of_markPair hmark
        simp [Literal.cells, hterms] at hcells
      | ok c =>
        simp only [hmark] at hadd
        have hc := remarked_of_markPair hsound hl' hdistinct hterms hmark
        obtain ⟨h, b', hgives, rfl, hleaves, hstep⟩ := gives_noop_of_addPreconditions hb hl
          (hc.constantsIn.isConstant_literal hl') hc.value?
          (fun m hm => absurd hm List.not_mem_nil) hadd
        exact .inr ⟨h, b', _, hgives, hkeep, hstep, hleaves, hc⟩
    all_goals
      rw [hterms] at hadd hlength
      rw [if_neg (by simp [hlength]), hlength] at hkeep
      exact .inl ⟨hdistinct, _, fails_noop (Action.noopOf_eq_error hadd), fun _ => hkeep⟩
  · have hadd : (Action.keeping l).addPreconditions b.arena [l] =
        (.ok { Action.keeping l with preconditions := ⟨[l]⟩, distinct := [] }, b.arena) := by
      rw [Action.addPreconditions, if_neg hdistinct]
      rfl
    have hkeep : Step.keep (l.shown a) =
        .ok ⟨noopName, true, (l.shown a).arguments, [l.shown a], [], [l.shown a]⟩ := by
      rw [Step.keep, hname, if_neg hdistinct]
    obtain ⟨h, b', hgives, harena, hleaves, hstep⟩ := gives_noop_of_addPreconditions hb hl hl' rfl
      (fun m hm => List.mem_singleton.1 hm) hadd
    exact .inr ⟨h, b', _, hgives, hkeep, hstep, hleaves, harena ▸ hsound.remarked _⟩

/-! ### Keeping all literals of a layer -/

/-- **Keeping several literals.** Either their actions are there, registered in a file, or one of
them cannot be kept. -/
theorem noops_cases {into : Handle} : ∀ {ls : List Literal} {b : Workbench},
    (∀ l ∈ ls, l.isConstant a = true) → b.arena.Sound → a.ConstantsIn b.arena →
    ∀ {f : FileItem}, b.items[into]? = some (.file f) →
    ∀ {index : Index Fact Step}, List.Forall₂ (b.Files a) f.filings index →
    ((∃ l ∈ ls, l.name = distinctName) ∧ ∃ e, Fails (ls.mapM fun l => do
        let h ← noop l
        register h into
        return h) b (.schema e) ∧
      ((∀ l ∈ ls, l.cells = []) → (ls.map (·.shown a)).mapM Step.keep = .error e)) ∨
    ∃ handles b' steps, Gives (ls.mapM fun l => do
        let h ← noop l
        register h into
        return h) b handles b' ∧
      List.Forall₂ (fun l t => Step.keep (l.shown a) = .ok t) ls steps ∧
      List.Forall₂ (b'.IsStep a) handles steps ∧ b.Leaves b' [into] ∧
      b.arena.Remarked (ls.flatMap Literal.marked) b'.arena ∧
      ∃ g, b'.items[into]? = some (.file g) ∧
        List.Forall₂ (b'.Files a) g.filings (steps.foldl Index.fileEffects index) := by
  intro ls
  induction ls with
  | nil =>
    intro b _ hsound _ f hinto index hf
    exact .inr ⟨[], b, [], gives_pure [], .nil, .nil, .refl b _, hsound.remarked _, f, hinto, hf⟩
  | cons l ls ih =>
    intro b hls hsound ha f hinto index hf
    rw [List.mapM_cons]
    rcases noop_cases hsound ha (hls l List.mem_cons_self) with
      ⟨hname, e, hfails, hkeep⟩ | ⟨h, b₁, t, hgives, hkeep, hstep, hleaves, hmarked⟩
    · refine .inl ⟨⟨l, List.mem_cons_self, hname⟩, e, hfails.bind.bind, fun hcells => ?_⟩
      rw [List.map_cons, List.mapM_cons, hkeep (hcells l List.mem_cons_self)]
      rfl
    · have hkeeps₁ := hleaves.keepsActions (by simp)
      have hb₁ : b₁.Keeps a := (ha.trans hmarked.constantsIn).keeps hmarked.sound.keeps
      obtain ⟨b₂, hregister, harena, hleaves₂, g, hg, -, hfiles⟩ := gives_register_files hb₁ hstep
        (hleaves hinto List.not_mem_nil) (hf.imp fun _ _ => Workbench.Files.mono hkeeps₁)
      have hkeeps₂ := hleaves₂.keepsActions (by simp [hleaves hinto List.not_mem_nil])
      have hfirst : Gives (do
          let h ← noop l
          register h into
          return h) b h b₂ := hgives.bind (hregister.bind (gives_pure h))
      have hmarked₂ : b.arena.Remarked l.marked b₂.arena := harena.symm ▸ hmarked
      rcases ih (fun m hm => hls m (List.mem_cons_of_mem l hm)) hmarked₂.sound
          (ha.trans hmarked₂.constantsIn) hg hfiles with
        ⟨⟨m, hm, hname⟩, e, hfails, hrefused⟩ |
        ⟨handles, b₃, steps, hrest, hkeeps, hsteps, hleaves₃, hmarked₃, hlast⟩
      · refine .inl ⟨⟨m, List.mem_cons_of_mem l hm, hname⟩, e, hfirst.bind_fails hfails.bind,
          fun hcells => ?_⟩
        rw [List.map_cons, List.mapM_cons, hkeep,
          hrefused fun m hm => hcells m (List.mem_cons_of_mem l hm)]
        rfl
      · have hkeeps₃ := hleaves₃.keepsActions (by simp [hg])
        refine .inr ⟨h :: handles, b₃, t :: steps, hfirst.bind (hrest.bind (gives_pure _)),
          .cons hkeep hkeeps, .cons ((hstep.mono hkeeps₂).mono hkeeps₃) hsteps, ?_,
          hmarked₂.trans hmarked₃, hlast⟩
        exact ((hleaves.trans hleaves₂).trans hleaves₃).subset (by simp)

end Bench

end Strips
