import Strips.Proofs.LayerBuilding

/-!
# The action layer that is built on a workbench

When all actions of a layer are made, the workbench is ready for their pairs: every action says a
step, the file of the actions is the index of the steps, and the pairs of facts that are looked at
are those of the fact layer (`Workbench.Ready`). Whatever new layer of these actions is made then,
and wherever their file comes from, the pairs that are found are the steps in conflict.

## Main definitions

* `Workbench.Ready` – all actions of a layer are made.
* `Workbench.ExcludesConflicts` – the actions of a layer that exclude each other are those that
  conflict.
* `Bench.BuiltLayer` – an action layer was built over a fact layer.

## Main results

* `Workbench.Ready.gives_layer` – finding the pairs of a new layer.
* `Bench.buildActions_cases` – the actions of the layer that is built are the steps over the facts.
* `Bench.excludesConflicts_of_buildActions` – and they exclude each other if they conflict.
-/

namespace Strips

/-! ### What an action says -/

namespace Action.Says

variable {b : Workbench} {a : Arena} {x y : Action} {s t : Step}

/-- The literals of a constant action say its facts under every arena that keeps the constants. -/
theorem map_shown (hx : x.Says a s) (hb : b.Keeps a) {set : LiteralSet} {facts : List Fact}
    (hset : ∀ l ∈ set.members, l ∈ x.literals) (hfacts : set.members.map (·.shown a) = facts) :
    set.members.map (·.shown b.arena) = facts := by
  rw [← hfacts]
  exact List.map_congr_left fun l hl =>
    Literal.shown_congr (hx.constant l (hset l hl)) fun k hk => (hb k hk).2

/-- The facts of a constant action are those of the step that it says. -/
theorem shownStep_beq (hx : x.Says a s) (hb : b.Keeps a) :
    ({ x.shownStep b.arena with arguments := s.arguments } == s) = true := by
  have hmem : ∀ {set : LiteralSet} {facts : List Fact}, (∀ l ∈ set.members, l ∈ x.literals) →
      set.members.map (·.shown a) = facts →
      ∀ f, f ∈ (set.members.map (·.shown b.arena)).eraseDups ↔ f ∈ facts := by
    intro set facts hset hfacts f
    rw [List.mem_eraseDups, hx.map_shown hb hset hfacts]
  refine Step.beq_iff.2 ⟨hx.noop, hx.name, rfl, hmem (fun l hl => ?_) hx.preconditions,
    hmem (fun l hl => ?_) hx.deleted, hmem (fun l hl => ?_) hx.added⟩
  all_goals
    rw [Action.mem_literals]
    simp [hl]

/-- So actions conflict if the steps do. -/
theorem conflict_iff (hx : x.Says a s) (hy : y.Says a t) (hb : b.Keeps a) {source : FactLayer}
    {strict : Bool} : source.Conflict strict (x.shownStep b.arena) (y.shownStep b.arena) ↔
      source.Conflict strict s t := by
  -- a conflict is about facts, not about arguments
  have hfacts : source.Conflict strict (x.shownStep b.arena) (y.shownStep b.arena) ↔
      source.Conflict strict { x.shownStep b.arena with arguments := s.arguments }
        { y.shownStep b.arena with arguments := t.arguments } := Iff.rfl
  have hs := hx.shownStep_beq hb
  have ht := hy.shownStep_beq hb
  rw [hfacts]
  exact ⟨fun h => h.congr hs ht, fun h => h.congr (BEq.symm hs) (BEq.symm ht)⟩

end Action.Says

/-! ### New layers of given actions -/

/-- The relation of the pairs that are found among steps, for given pairs of facts. -/
def ActionLayer.foundRelation (steps : List Step) (needed : List (Fact × Fact)) :
    PairRelation Step :=
  ({} : PairRelation Step).addAll
    (foundPairs (consumers { steps }) (effects { steps }) needed)

/-- Steps of a list exclude each other exactly if they are not the same and conflict. -/
theorem ActionLayer.contains_foundRelation {source : FactLayer} (hsource : source.mutexes.IsSymm)
    {strict : Bool} {needed : List (Fact × Fact)} (hneeded : source.NeededPairs strict needed)
    {steps : List Step} {s t : Step} (hs : s ∈ steps) (ht : t ∈ steps) :
    (foundRelation steps needed).contains s t = true ↔
      (s == t) = false ∧ source.Conflict strict s t := by
  have hmem : ∀ {u : Step}, u ∈ steps → steps.contains u = true := fun hu =>
    List.contains_iff_exists_mem_beq.2 ⟨_, hu, BEq.rfl⟩
  rw [foundRelation, PairRelation.contains_addAll PairRelation.isSymm_empty,
    exists_joins_foundPairs_iff hsource (fun _ => mem_steps_of_mem_effects)
      (registers_foldl_fileEffects steps []) hneeded, hmem hs, hmem ht]
  exact (or_iff_right Bool.false_ne_true).trans (by simp)

/-- A question to an action layer. -/
theorem Bench.gives_isMutex {b : Workbench} {handle : Handle} {actions : List Handle}
    {x : Exclusions} (h : b.items[handle]? = some (.actionLayer actions x)) (m n : Member) :
    Gives (isMutex handle m n) b (x.contains b m n) b :=
  (gives_item h).bind (gives_get.bind (gives_pure (x.contains b m n)))

namespace Workbench

/-- All actions of a layer are made: each says a step, the file holds the index of the steps, and
the pairs of facts are those of the source. -/
structure Ready (b : Workbench) (a : Arena) (actions : List Handle) (steps : List Step)
    (source : Option Handle) (needed : List (Fact × Fact)) (into : Handle) : Prop where
  keeps : b.Keeps a
  actions : List.Forall₂ (b.IsStep a) actions steps
  looksAt : Bench.LooksAt b a needed source
  registers : Bench.Registers b a steps into

/-- The actions of a layer exclude each other exactly if they are different and conflict over the
facts of `source`: one deletes what the other adds or needs, or, in strict mode, they need facts
that exclude each other. -/
structure ExcludesConflicts (b : Workbench) (layer : Handle) (actions : List Handle)
    (source : FactLayer) (strict : Bool) : Prop where
  item : ∃ x, b.items[layer]? = some (.actionLayer actions x)
  action : ∀ h ∈ actions, ∃ x, b.items[h]? = some (.action x)
  isMutex : ∀ h ∈ actions, ∀ k ∈ actions, ∀ x y, b.items[h]? = some (.action x) →
    b.items[k]? = some (.action y) →
      ∃ answer, (Bench.isMutex layer (.object h) (.object k)).run.run b = (.ok answer, b) ∧
        (answer = true ↔ b.same (.object h) (.object k) = false ∧
          source.Conflict strict (x.shownStep b.arena) (y.shownStep b.arena))

namespace Ready

variable {b b' : Workbench} {a : Arena} {actions : List Handle} {steps : List Step}
  {source : Option Handle} {needed : List (Fact × Fact)} {into : Handle}
  (h : b.Ready a actions steps source needed into)

include h

/-- New objects change nothing. -/
theorem mono (hleaves : b.Leaves b' []) (harena : b'.arena = b.arena) :
    b'.Ready a actions steps source needed into := by
  have hkeeps := hleaves.keepsActions (by simp)
  obtain ⟨f, hf, hfiles⟩ := h.registers
  exact ⟨h.keeps.congr harena, h.actions.imp fun _ _ => IsStep.mono hkeeps,
    h.looksAt.mono hleaves, f, hleaves hf List.not_mem_nil,
    hfiles.imp fun _ _ => Files.mono hkeeps⟩

/-- **Finding the pairs of a new layer**, with the file of the actions or without one. -/
theorem gives_layer (dependencies : Option Handle)
    (hdependencies : ∀ d ∈ dependencies, d = into) :
    ∃ layer b' x, Bench.Gives (do
        let layer ← Bench.actionLayerOf actions
        Bench.findMutexes layer source dependencies
        return layer) b layer b' ∧ b'.Ready a actions steps source needed into ∧
      b'.arena = b.arena ∧ b.Leaves b' [] ∧ b'.items[layer]? = some (.actionLayer actions x) ∧
      x.Relates b' a (ActionLayer.foundRelation steps needed) := by
  have hactions : ∀ k ∈ actions, ∃ t, b.IsStep a k t := fun k hk => by
    obtain ⟨t, -, ht⟩ := exists_of_mem_left h.actions hk
    exact ⟨t, ht⟩
  obtain ⟨b₁, hlayer, harena₁, hleaves₁, hitem₁⟩ := Bench.gives_actionLayerOf hactions
  have h₁ := h.mono hleaves₁ harena₁
  obtain ⟨b₂, x, hpairs, harena₂, hleaves₂, hitem₂, hx⟩ := Bench.gives_findMutexes h₁.keeps hitem₁
    h₁.actions h₁.looksAt fun d hd => hdependencies d hd ▸ h₁.registers
  have hleaves := hleaves₁.of_new hleaves₂
  exact ⟨_, b₂, x, hlayer.bind (hpairs.bind (Bench.gives_pure _)),
    h.mono hleaves (harena₂.trans harena₁), harena₂.trans harena₁, hleaves, hitem₂, hx⟩

/-- What excludes each other in a layer of the actions. -/
theorem excludesConflicts {facts : FactLayer} (hfacts : facts.mutexes.IsSymm) {strict : Bool}
    (hneeded : facts.NeededPairs strict needed) {layer : Handle} {x : Exclusions}
    (hlayer : b.items[layer]? = some (.actionLayer actions x))
    (hx : x.Relates b a (ActionLayer.foundRelation steps needed)) :
    b.ExcludesConflicts layer actions facts strict := by
  have hstep : ∀ k ∈ actions, ∃ t ∈ steps, b.IsStep a k t :=
    fun k hk => exists_of_mem_left h.actions hk
  refine ⟨⟨x, hlayer⟩, fun k hk => ?_, fun k hk m hm y z hy hz => ?_⟩
  · obtain ⟨t, -, y, hy, -⟩ := hstep k hk
    exact ⟨y, hy⟩
  · obtain ⟨s, hs, hks⟩ := hstep k hk
    obtain ⟨t, ht, hmt⟩ := hstep m hm
    have hcontains := hx.contains (fun _ _ => id) hks hmt
    have hsame := same_object hks hmt
    obtain ⟨y', hy', hys⟩ := hks
    obtain ⟨z', hz', hzt⟩ := hmt
    obtain rfl : y = y' := Item.action.inj (Option.some.inj (hy.symm.trans hy'))
    obtain rfl : z = z' := Item.action.inj (Option.some.inj (hz.symm.trans hz'))
    refine ⟨_, Bench.gives_isMutex hlayer _ _, ?_⟩
    rw [hcontains, ActionLayer.contains_foundRelation hfacts hneeded hs ht, hsame,
      hys.conflict_iff hzt h.keeps]

end Ready

end Workbench

/-! ### Building a layer -/

/-- The instances of schemas over a layer, each once, as they are met. -/
def FactLayer.allInstances (source : FactLayer) (schemas : List Schema) (strict : Bool) :
    List Step :=
  schemas.foldl (fun steps s => appendNew steps (s.instances source strict)) []

/-- An object is a schema that stands on the arena. The cells that get marks when facts of the layer
are kept are none of its own: a literal has cells of a schema only if it was taken from it, and gets
marks only if it is named like the constraints. -/
def Workbench.CarriesApart (b : Workbench) (layer : Handle) (s : Schema) (h : Handle) : Prop :=
  ∃ offset, s.Placed b.arena offset ∧ b.items[h]? = some (.action (s.action.shift offset)) ∧
    ∀ facts x, b.items[layer]? = some (.factLayer facts x) →
      ∀ l ∈ facts.members, ∀ k ∈ l.marked, k < offset ∨ offset + s.arena.size ≤ k

/-- Facts have no cells that get marks. -/
theorem Workbench.Carries.apart {b : Workbench} {h : Handle} {s : Schema} (hs : b.Carries h s)
    {layer : Handle} {facts : List Fact} {x : Exclusions}
    (hlayer : b.items[layer]? = some (.factLayer ⟨facts.map Fact.literal⟩ x)) :
    b.CarriesApart layer s h := by
  obtain ⟨offset, hplaced, hitem⟩ := hs
  refine ⟨offset, hplaced, hitem, fun literals y hliterals l hl k hk => ?_⟩
  obtain ⟨rfl, -⟩ := Item.factLayer.inj (Option.some.inj (hliterals.symm.trans hlayer))
  obtain ⟨f, -, rfl⟩ := List.mem_map.1 hl
  have hcells : f.literal.cells = [] := by simp [Literal.cells, Fact.literal]
  rw [Literal.marked, hcells, ite_self] at hk
  cases hk

namespace Bench

variable {b : Workbench} {layer : Handle} {dependencies : Option Handle}

/-- The file of the actions is an empty one, given or new. -/
theorem gives_fileOr (hdependencies : ∀ d ∈ dependencies, b.items[d]? = some (.file {})) :
    ∃ b', Gives (fileOr dependencies) b (dependencies.getD b.items.size) b' ∧ b'.arena = b.arena ∧
      b.Leaves b' [] ∧ b'.items[dependencies.getD b.items.size]? = some (.file {}) := by
  cases dependencies with
  | some into => exact ⟨b, gives_pure into, rfl, .refl b _, hdependencies into rfl⟩
  | none => exact ⟨_, gives_add _, rfl, b.leaves_push _, Array.getElem?_push_size⟩

/-- The pairs of facts that are looked at when an action layer is built. -/
theorem exists_neededPairs {a : Arena} {source : FactLayer} {x : Exclusions}
    (hx : x.Says a source.mutexes) (layer : Handle) (strict : Bool) :
    ∃ needed, source.NeededPairs strict needed ∧ ∀ {b : Workbench} {facts : LiteralSet},
      b.items[layer]? = some (.factLayer facts x) →
        LooksAt b a needed (if strict then some layer else none) := by
  cases strict with
  | false => exact ⟨[], fun f g => by simp, fun _ => rfl⟩
  | true =>
    obtain ⟨pairs, hpairs, hmem⟩ := hx.exists_pairs
    refine ⟨pairs, fun f g => ?_, fun hitem => ⟨_, x, hitem, hpairs⟩⟩
    rw [hmem]
    exact (and_iff_right rfl).symm

/-- **The end of the search.** All actions are made. -/
theorem Building.ready {b₀ : Workbench} {a : Arena} {found into : Handle} {noops steps : List Step}
    (h : Building b₀ a found into noops steps b) (hb : b.Keeps a) {keepers : List Handle}
    (hkeepers : List.Forall₂ (b₀.IsStep a) keepers noops) {source : Option Handle}
    {needed : List (Fact × Fact)} (hlooks : LooksAt b a needed source) :
    ∃ f, b.items[found]? = some (.file f) ∧
      b.Ready a (keepers ++ f.instances.map Prod.snd) (noops ++ steps) source needed into := by
  obtain ⟨f, hf, hinstances⟩ := h.found
  have hfound : List.Forall₂ (b.IsStep a) (f.instances.map Prod.snd) steps :=
    List.forall₂_map_left_iff.2 (hinstances.imp fun _ _ => And.right)
  have hkept := hkeepers.imp fun _ _ ht => ht.mono h.keepsActions
  exact ⟨f, hf, hb, List.rel_append hkept hfound, hlooks, h.into⟩

/-- An action layer was built over the fact layer `layer` of `source`. Its actions are the steps
that keep a fact and then the instances that the search meets, and its pairs are those that are
found among them. The schemas still stand on the arena, and only the given file has changed. -/
structure BuiltLayer (b : Workbench) (a : Arena) (layer : Handle) (source : FactLayer)
    (schemas : List Schema) (handles : List Handle) (dependencies : Option Handle) (strict : Bool)
    (noops : List Step) (handle : Handle) (b' : Workbench) : Prop where
  keeps : List.Forall₂ (fun f t => Step.keep f = .ok t) source.facts noops
  actions : ∃ needed actions x, source.NeededPairs strict needed ∧
    b'.Ready a actions (noops ++ source.allInstances schemas strict)
      (if strict then some layer else none) needed (dependencies.getD b.items.size) ∧
    b'.items[handle]? = some (.actionLayer actions x) ∧
    x.Relates b' a
      (ActionLayer.foundRelation (noops ++ source.allInstances schemas strict) needed)
  sound : b'.arena.Sound
  carries : List.Forall₂ (fun s h => b'.Carries h s) schemas handles
  leaves : b.Leaves b' dependencies.toList

/-- **The layer that is built**, unless a fact is named like the constraints and cannot be kept. -/
theorem buildActions_cases {a : Arena} (hsound : b.arena.Sound) (ha : a.ConstantsIn b.arena)
    {source : FactLayer} {facts : LiteralSet} {x : Exclusions}
    (hitem : b.items[layer]? = some (.factLayer facts x))
    (hconstant : ∀ l ∈ facts.members, l.isConstant a = true) (hx : x.Says a source.mutexes)
    (hfacts : facts.members.map (·.shown a) = source.facts) {schemas : List Schema}
    {handles : List Handle} (hbuilt : ∀ s ∈ schemas, s.Built)
    (hschemas : List.Forall₂ (b.CarriesApart layer) schemas handles)
    (hdependencies : ∀ d ∈ dependencies, b.items[d]? = some (.file {})) (strict : Bool) :
    ((∃ f ∈ source.facts, f.name = distinctName) ∧
      ∃ e, Fails (buildActions layer handles dependencies strict) b (.schema e) ∧
        ((∀ l ∈ facts.members, l.cells = []) → source.facts.mapM Step.keep = .error e)) ∨
    ∃ noops handle b', Gives (buildActions layer handles dependencies strict) b handle b' ∧
      BuiltLayer b a layer source schemas handles dependencies strict noops handle b' := by
  obtain ⟨b₁, hfileOr, harena₁, hleaves₁, hinto₁⟩ := gives_fileOr hdependencies
  set into : Handle := dependencies.getD b.items.size
  have hitem₁ := hleaves₁ hitem List.not_mem_nil
  have hname : (∃ l ∈ facts.members, l.name = distinctName) →
      ∃ f ∈ source.facts, f.name = distinctName := by
    rintro ⟨l, hl, hname⟩
    exact ⟨l.shown a, hfacts ▸ List.mem_map_of_mem hl, hname⟩
  rcases noops_cases hconstant (harena₁ ▸ hsound) (harena₁ ▸ ha) hinto₁ .nil with
    ⟨hdistinct, e, hfails, hrefused⟩ |
    ⟨keepers, b₂, noops, hnoops, hkeep, hsteps, hleaves₂, hmarked, g, hg, hfiles⟩
  · exact .inl ⟨hname hdistinct, e, hfileOr.bind_fails
      ((gives_factLayer hitem₁).bind_fails hfails.bind), fun hcells => hfacts ▸ hrefused hcells⟩
  · rw [harena₁] at hmarked
    -- a new file takes the instances, and objects of `b` other than files are still there
    let b₃ : Workbench := { b₂ with items := b₂.items.push (.file {}) }
    have hleaves₃ : b₂.Leaves b₃ [] := b₂.leaves_push _
    have hold : ∀ {k : Handle} {it : Item}, b.items[k]? = some it → (∀ f, it ≠ .file f) →
        b₃.items[k]? = some it := by
      intro k it hit hfile
      refine hleaves₃ (hleaves₂ (hleaves₁ hit List.not_mem_nil) fun hk => ?_) List.not_mem_nil
      obtain rfl := List.mem_singleton.1 hk
      exact hfile {} (Option.some.inj ((hleaves₁ hit List.not_mem_nil).symm.trans hinto₁))
    have hitem₃ := hold hitem fun _ => Item.noConfusion
    have hschemas₃ : List.Forall₂ (fun s h => ∃ offset, s.Placed b₃.arena offset ∧
        b₃.items[h]? = some (.action (s.action.shift offset))) schemas handles := by
      refine hschemas.imp ?_
      rintro s h ⟨offset, hplaced, hschema, hapart⟩
      refine ⟨offset, hplaced.of_remarked hmarked fun k hk => ?_,
        hold hschema fun _ => Item.noConfusion⟩
      obtain ⟨l, hl, hkl⟩ := List.mem_flatMap.1 hk
      exact hapart facts x hitem l hl k hkl
    obtain ⟨b₄, hfind, hsound₄, hsame₄, hplaced₄, hbuilding⟩ := gives_forM_find (b := b₃) hitem₃
      hconstant hx hfacts strict hbuilt hmarked.sound (ha.trans hmarked.constantsIn) hschemas₃
      (building_start hg hfiles)
    obtain ⟨needed, hneeded, hlooks⟩ := exists_neededPairs hx layer strict
    obtain ⟨f₄, hfound₄, hready⟩ := hbuilding.ready (hsame₄.keeps hsound₄.keeps)
      (hsteps.imp fun _ _ ht => ht.mono (hleaves₃.keepsActions (by simp)))
      (hlooks (hbuilding.item hitem₃ fun _ => Item.noConfusion))
    obtain ⟨handle, b₅, y, hpairs, hready₅, harena₅, hleaves₅, hitem₅, hy⟩ :=
      hready.gives_layer (some into) (by simp)
    refine .inr ⟨noops, handle, b₅, hfileOr.bind ((gives_factLayer hitem₁).bind (hnoops.bind
      ((gives_add _).bind (hfind.bind ((gives_file hfound₄).bind hpairs))))),
      ?_, ⟨needed, _, y, hneeded, hready₅, hitem₅, hy⟩, harena₅ ▸ hsound₄, ?_, ?_⟩
    · rw [← hfacts]
      exact List.forall₂_map_left_iff.2 hkeep
    · refine ((List.forall₂_and_left _ _).2 ⟨hbuilt, hschemas₃⟩).imp ?_
      rintro s k ⟨hs, offset, hplaced, hschema⟩
      exact ⟨offset, harena₅ ▸ hplaced₄ hs hplaced,
        hleaves₅ (hbuilding.item hschema fun _ => Item.noConfusion) List.not_mem_nil⟩
    · -- the files that are new are not among the old objects
      intro k it hit hk
      have hinto : k ≠ into := by
        rintro rfl
        cases hdependency : dependencies with
        | some d => exact hk (by simp [into, hdependency])
        | none =>
          obtain ⟨hlt, -⟩ := Array.getElem?_eq_some_iff.1 hit
          simp [into, hdependency] at hlt
      have hit₂ := hleaves₂ (hleaves₁ hit List.not_mem_nil) (by simpa using hinto)
      have hfound : k ≠ b₂.items.size := Nat.ne_of_lt (Array.getElem?_eq_some_iff.1 hit₂).1
      exact hleaves₅ (hbuilding.leaves (hleaves₃ hit₂ List.not_mem_nil) (by simp [hinto, hfound]))
        List.not_mem_nil

/-- **The pairs that are found by the indices are the conflicts.** When the action layer over
constant facts is built, from schemas that were read, two of its actions exclude each other exactly
if they are different and one deletes what the other adds or needs or, in strict mode, they need
facts that exclude each other. A new layer of the same actions comes to the same relation, whether
it is given the file that was filled while the actions were made or files them anew. Only a fact
that is named like the constraints can be refused. -/
theorem excludesConflicts_of_buildActions (hsound : b.arena.Sound) {source : FactLayer}
    (hlayer : b.Presents layer source) {schemas : List Schema} {handles : List Handle}
    (hparsed : ∀ s ∈ schemas, ∃ text p, Problem.parse text = .ok p ∧ s ∈ p.schemas)
    (hschemas : List.Forall₂ (b.CarriesApart layer) schemas handles)
    (hdependencies : ∀ d ∈ dependencies, b.items[d]? = some (.file {})) (strict : Bool) :
    ((∃ f ∈ source.facts, f.name = distinctName) ∧
      ∃ e b', (buildActions layer handles dependencies strict).run.run b =
        (.error (.schema e), b')) ∨
    ∃ actions handle b', (buildActions layer handles dependencies strict).run.run b =
        (.ok handle, b') ∧
      b'.ExcludesConflicts handle actions source strict ∧
      ∀ filed ∈ [none, some (dependencies.getD b.items.size)], ∃ fresh b'',
        (do
          let fresh ← actionLayerOf actions
          findMutexes fresh (if strict then some layer else none) filed
          return fresh : Bench Handle).run.run b' = (.ok fresh, b'') ∧
        b''.ExcludesConflicts fresh actions source strict ∧
        ∀ h ∈ actions, ∀ k ∈ actions,
          ((isMutex fresh (.object h) (.object k)).run.run b'').1 =
            ((isMutex handle (.object h) (.object k)).run.run b').1 := by
  have hbuilt : ∀ s ∈ schemas, s.Built := fun s hs => by
    obtain ⟨text, p, hp, hsp⟩ := hparsed s hs
    exact Problem.built_of_parse hp s hsp
  obtain ⟨facts, x, hlayer, hconstant, hx, hfacts⟩ := hlayer
  have hsymm := hx.tidy.isSymm
  rcases buildActions_cases hsound (.refl b.arena) hlayer hconstant hx hfacts hbuilt hschemas
      hdependencies strict with
    ⟨hname, e, ⟨b', hfails⟩, -⟩ | ⟨noops, handle, b', hgives, hbuiltLayer⟩
  · exact .inl ⟨hname, e, b', hfails⟩
  · obtain ⟨needed, actions, x, hneeded, hready, hitem, hx⟩ := hbuiltLayer.actions
    refine .inr ⟨actions, handle, b', hgives, hready.excludesConflicts hsymm hneeded hitem hx,
      fun filed hfiled => ?_⟩
    obtain ⟨fresh, b'', y, hfresh, hready', -, hleaves, hitem', hy⟩ :=
      hready.gives_layer filed fun d hd => by
        rcases List.mem_pair.1 hfiled with rfl | rfl
        · cases hd
        · exact (Option.mem_some_iff.1 hd).symm
    refine ⟨fresh, b'', hfresh, hready'.excludesConflicts hsymm hneeded hitem' hy,
      fun h hh k hk => ?_⟩
    -- both relations are that of the steps
    obtain ⟨s, -, hs⟩ := exists_of_mem_left hready.actions hh
    obtain ⟨t, -, ht⟩ := exists_of_mem_left hready.actions hk
    have hkeeps := hleaves.keepsActions (by simp)
    have hfresh := gives_isMutex hitem' (.object h) (.object k)
    have hold := gives_isMutex hitem (.object h) (.object k)
    rw [hy.contains (fun _ _ => id) (hs.mono hkeeps) (ht.mono hkeeps)] at hfresh
    rw [hx.contains (fun _ _ => id) hs ht] at hold
    rw [hfresh, hold]

/-- The actions of the layer over the initial facts, and whether driving away excludes staying. -/
def driveAnswer : Bench (List Handle × Bool) := do
  let handle ← buildActions 1 [0] (some 2) true
  let (actions, _) ← actionLayer handle
  return (actions, ← isMutex handle (.object 3) (.object 7))

/-- Driving away excludes staying, which is the action `3`. -/
theorem excludesConflicts_of_buildActions_drive : ∃ p s handle b',
    Problem.parse driveText = .ok p ∧ s ∈ p.schemas ∧
    (buildActions 1 [0] (some 2) true).run.run (driveBench p s) = (.ok handle, b') ∧
    b'.ExcludesConflicts handle [3, 4, 5, 7] ⟨p.initial, {}⟩ true ∧
    (isMutex handle (.object 3) (.object 7)).run.run b' = (.ok true, b') := by
  have hread : (Problem.parse driveText).toOption.any (fun p => p.schemas.any fun s =>
      decide (0 ∈ s.action.parameters) &&
        (driveAnswer.run.run (driveBench p s)).1.toOption == some ([3, 4, 5, 7], true)) = true := by
    decide +kernel
  cases hp : Problem.parse driveText with
  | error e =>
    rw [hp] at hread
    cases hread
  | ok p =>
    rw [hp] at hread
    obtain ⟨s, hs, hread⟩ := List.any_eq_true.1 hread
    obtain ⟨hparameter, hread⟩ := (Bool.and_eq_true _ _).mp hread
    have hbuilt := Problem.built_of_parse hp s hs
    have hplaced : s.Placed (driveBench p s).arena 0 :=
      hbuilt.placed_bind (hbuilt.placed_moveInto Arena.sound_empty 0)
        (of_decide_eq_true hparameter) "z"
    have hcarries : (driveBench p s).Carries 0 s := ⟨0, hplaced, rfl⟩
    have hlayer : (driveBench p s).Presents 1 ⟨p.initial, {}⟩ := Workbench.presents_of_facts rfl
    have hparsed : ∀ u ∈ [s], ∃ text p, Problem.parse text = .ok p ∧ u ∈ p.schemas := by
      intro u hu
      obtain rfl := List.mem_singleton.1 hu
      exact ⟨driveText, p, hp, hs⟩
    have hfile : ∀ d ∈ some 2, (driveBench p s).items[d]? = some (.file {}) := by
      intro d hd
      obtain rfl := Option.mem_some_iff.1 hd
      rfl
    rcases excludesConflicts_of_buildActions hplaced.hosts.sound hlayer hparsed
        (.cons (hcarries.apart rfl) .nil) hfile true with
      ⟨-, e, b', hfails⟩ | ⟨actions, handle, b', hrun, hexcludes, -⟩
    · have hnone : Fails driveAnswer (driveBench p s) (.schema e) := Fails.bind ⟨b', hfails⟩
      obtain ⟨b'', hnone⟩ := hnone
      rw [hnone] at hread
      cases hread
    · obtain ⟨x, hitem⟩ := hexcludes.item
      have hanswer := gives_isMutex hitem (.object 3) (.object 7)
      have hgives : Gives driveAnswer (driveBench p s)
          (actions, x.contains b' (.object 3) (.object 7)) b' :=
        Gives.bind hrun ((gives_actionLayer hitem).bind (hanswer.bind (gives_pure _)))
      rw [hgives] at hread
      obtain ⟨rfl, hx⟩ := Prod.mk.inj (Option.some.inj (beq_iff_eq.1 hread))
      rw [hx] at hanswer
      exact ⟨p, s, handle, b', rfl, hs, hrun, hexcludes, hanswer⟩

end Bench

end Strips
