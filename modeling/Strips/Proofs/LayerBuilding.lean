import Strips.Proofs.Noops

/-!
# Building an action layer on a workbench

The actions of a layer are made in two phases, and they are registered as they are made: first one
for each literal of the fact layer, then the instances of the schemas, as the search meets them. The
file that has been filled when the search is over is the one that registering the actions of the
layer afterwards would have filled.

While the instances are looked for, the invariant is that one file holds the instances met so far,
each once, and that in the other all actions made so far are registered (`Bench.Building`). It says
this of steps, so it speaks of lists and not of objects.

## Main definitions

* `Bench.Building` – the invariant of the search.

## Main results

* `Bench.gives_find_building` – one schema.
* `Bench.gives_forM_find` – all schemas of a list.
* `Bench.gives_actionLayerOf` – a layer of given actions.
-/

namespace Strips

namespace Arena

variable {a : Arena} {offset : Nat}

namespace Hosts

variable {b : Arena} (h : b.Hosts a offset) {ρ : Nat → Option String} (hρ : a.Retains ρ)

include h hρ

theorem constantsIn_graft : b.ConstantsIn (b.graft a offset ρ) :=
  ⟨fun _ hk => by rw [isConstant_graft, hk], fun _ hk => h.value?_graft_of_isConstant hρ hk⟩

theorem revalued_graft : b.Revalued (b.graft a offset ρ).value? (b.graft a offset ρ) := by
  refine ⟨h.sound.revalue fun k hk => ?_, sameClasses_graft, partners_revalue _ _, rfl⟩
  have hvalue : (b.graft a offset ρ).value? k = b.value? k := h.value?_graft_of_isConstant hρ hk
  rw [graft] at hvalue
  rw [hvalue]
  exact h.sound.isSome_constant k hk

end Hosts

end Arena

/-- When the cells of one schema are cleared, all others stay where they stood. -/
theorem Schema.Placed.graft {s u : Schema} (hs : s.Regular) (hu : u.Built) {b : Arena}
    {offset place : Nat} (hplaced : s.Placed b offset) (hother : u.Placed b place) :
    u.Placed (b.graft s.arena offset s.arena.value?) place := by
  have hosts := hplaced.hosts
  have hretains : s.arena.Retains s.arena.value? := fun _ _ => rfl
  refine hu.placed_of_revalued hother (hosts.revalued_graft hretains) fun i hi hparameter => ?_
  have hconstant := hother.hosts.isConstant i hi
  cases hc : u.arena.isConstant i with
  | true => exact hosts.value?_graft_of_isConstant hretains (hconstant.trans hc)
  | false =>
    by_cases hin : offset ≤ i + place ∧ i + place < offset + s.arena.size
    · -- the cell is one of both schemas, and a variable of both
      obtain ⟨j, hj⟩ : ∃ j, i + place = j + offset := ⟨i + place - offset, by omega⟩
      have hjs : j < s.arena.size := by omega
      have hcj : s.arena.isConstant j = false := by
        rw [← hosts.isConstant j hjs, ← hj, hconstant, hc]
      rw [hother.unbound i hi hc hparameter, hj, hosts.value?_graft hjs, hs.value?_eq_none hcj]
    · exact hosts.value?_graft_of_not hin

/-! ### Instances, each once -/

theorem appendNew_append (xs ys : List Step) : ∀ steps : List Step,
    appendNew steps (xs ++ ys) = appendNew (appendNew steps xs) ys := by
  induction xs with
  | nil => intro steps; rfl
  | cons x xs ih =>
    intro steps
    rw [List.cons_append, appendNew, appendNew]
    split
    · exact ih steps
    · exact ih (steps ++ [x])

namespace Bench

/-- What holds while the instances are looked for, on a workbench that was `b₀` before: `found`
holds the instances, each once, and in `into` these are registered after the actions that keep a
fact. -/
structure Building (b₀ : Workbench) (a : Arena) (found into : Handle) (noops steps : List Step)
    (b : Workbench) : Prop where
  ne : found ≠ into
  files : ∀ k ∈ [found, into], ∃ f, b₀.items[k]? = some (.file f)
  leaves : b₀.Leaves b [found, into]
  found : ∃ f, b.items[found]? = some (.file f) ∧
    List.Forall₂ (fun e t => e.1 = t.key ∧ b.IsStep a e.2 t) f.instances steps
  into : ∃ f, b.items[into]? = some (.file f) ∧
    List.Forall₂ (b.Files a) f.filings ((noops ++ steps).foldl Index.fileEffects [])

/-- **The start of the search**, when the file for the instances is new. -/
theorem building_start {b : Workbench} {a : Arena} {into : Handle} {f : FileItem}
    (hinto : b.items[into]? = some (.file f)) {noops : List Step}
    (hf : List.Forall₂ (b.Files a) f.filings (noops.foldl Index.fileEffects [])) :
    Building { b with items := b.items.push (.file {}) } a b.items.size into noops []
      { b with items := b.items.push (.file {}) } := by
  have hleaves := b.leaves_push (.file {})
  have hfound : (b.items.push (.file {}))[b.items.size]? = some (.file {}) :=
    Array.getElem?_push_size
  have hinto' := hleaves hinto List.not_mem_nil
  obtain ⟨hlt, -⟩ := Array.getElem?_eq_some_iff.1 hinto
  refine ⟨(Nat.ne_of_lt hlt).symm, fun k hk => ?_, .refl _ _, ⟨_, hfound, .nil⟩, f, hinto', ?_⟩
  · rcases List.mem_pair.1 hk with rfl | rfl
    · exact ⟨_, hfound⟩
    · exact ⟨_, hinto'⟩
  · rw [List.append_nil]
    exact hf.imp fun _ _ => Workbench.Files.mono (hleaves.keepsActions (by simp))

namespace Building

variable {b₀ b b' : Workbench} {a : Arena} {found into : Handle} {noops steps : List Step}
  (h : Building b₀ a found into noops steps b)

include h

/-- Objects that are no files stay as they were. -/
theorem item {k : Handle} {it : Item} (hit : b₀.items[k]? = some it) (hfile : ∀ f, it ≠ .file f) :
    b.items[k]? = some it := by
  refine h.leaves hit fun hk => ?_
  obtain ⟨f, hf⟩ := h.files k hk
  exact hfile f (Option.some.inj (hit.symm.trans hf))

theorem keepsActions : b₀.KeepsActions b := fun _ _ hx => h.item hx fun _ => Item.noConfusion

/-- What holds does not depend on the arena. -/
theorem withArena (c : Arena) : Building b₀ a found into noops steps { b with arena := c } := by
  obtain ⟨f, hf, hinstances⟩ := h.found
  obtain ⟨g, hg, hfilings⟩ := h.into
  have hkeeps : b.KeepsActions { b with arena := c } := fun _ _ => id
  exact ⟨h.ne, h.files, h.leaves,
    ⟨f, hf, hinstances.imp fun _ _ he => ⟨he.1, he.2.mono hkeeps⟩⟩,
    g, hg, hfilings.imp fun _ _ => Workbench.Files.mono hkeeps⟩

/-- A new object changes nothing. -/
theorem push (x : Item) :
    Building b₀ a found into noops steps { b with items := b.items.push x } := by
  have hleaves := b.leaves_push x
  have hkeeps := hleaves.keepsActions (by simp)
  obtain ⟨f, hf, hinstances⟩ := h.found
  obtain ⟨g, hg, hfilings⟩ := h.into
  exact ⟨h.ne, h.files, (h.leaves.trans hleaves).subset (by simp),
    ⟨f, hleaves hf (by simp), hinstances.imp fun _ _ he => ⟨he.1, he.2.mono hkeeps⟩⟩,
    g, hleaves hg (by simp), hfilings.imp fun _ _ => Workbench.Files.mono hkeeps⟩

/-- An instance is known if its step was met. -/
theorem any_same_key {f : FileItem} (hf : b.items[found]? = some (.file f)) (t : Step) :
    f.instances.any (·.1.same t.key) = steps.contains t := by
  obtain ⟨g, hg, hinstances⟩ := h.found
  obtain rfl : f = g := Item.file.inj (Option.some.inj (hf.symm.trans hg))
  generalize f.instances = entries at hinstances
  clear h hf hg
  induction hinstances with
  | nil => rfl
  | @cons e u entries steps he _ ih =>
    rw [List.any_cons, List.contains_cons, ih, he.1, Step.same_key, BEq.comm]

/-- **Filing a new instance** and registering it. -/
theorem file_new {t : Step} {handle : Handle} (hb : b.Keeps a) (ht : b.IsStep a handle t)
    {f : FileItem} (hf : b.items[found]? = some (.file f)) :
    ∃ b', Gives (do
        put found (.file { f with instances := f.instances ++ [(t.key, handle)] })
        register handle into) b () b' ∧ b'.arena = b.arena ∧
      Building b₀ a found into noops (steps ++ [t]) b' := by
  obtain ⟨f', hf', hinstances⟩ := h.found
  obtain rfl : f = f' := Item.file.inj (Option.some.inj (hf.symm.trans hf'))
  obtain ⟨g, hg, hfilings⟩ := h.into
  -- the instance is put into the one file, and then into the other
  let f₁ : FileItem := { f with instances := f.instances ++ [(t.key, handle)] }
  let b₁ : Workbench := { b with items := b.items.setIfInBounds found (.file f₁) }
  have hleaves₁ : b.Leaves b₁ [found] := b.leaves_set found _
  have hkeeps₁ := hleaves₁.keepsActions (by simp [hf])
  have hfound₁ : b₁.items[found]? = some (.file f₁) := Workbench.getElem?_set_self hf _
  have hinto₁ : b₁.items[into]? = some (.file g) := hleaves₁ hg (by simp [h.ne.symm])
  obtain ⟨b₂, hregister, harena, hleaves₂, g₂, hg₂, -, hfilings₂⟩ := gives_register_files
    (b := b₁) hb (ht.mono hkeeps₁) hinto₁
    (hfilings.imp fun _ _ => Workbench.Files.mono hkeeps₁)
  have hkeeps₂ := hleaves₂.keepsActions (by simp [hinto₁])
  have hold : List.Forall₂ (fun e t => e.1 = t.key ∧ b₂.IsStep a e.2 t) f.instances steps :=
    hinstances.imp fun _ _ he => ⟨he.1, (he.2.mono hkeeps₁).mono hkeeps₂⟩
  refine ⟨b₂, (gives_put _ _).bind hregister, harena, h.ne, h.files, ?_,
    ⟨f₁, hleaves₂ hfound₁ (by simp [h.ne]), ?_⟩, g₂, hg₂, ?_⟩
  · exact (h.leaves.trans (hleaves₁.trans hleaves₂)).subset (by simp)
  · exact List.rel_append hold (.cons ⟨rfl, (ht.mono hkeeps₁).mono hkeeps₂⟩ .nil)
  · rwa [← List.append_assoc, List.foldl_append]

/-- **One assignment.** The instance under it, if there is one, is filed and registered unless it
was met before. -/
theorem addInstance (hb : b.Keeps a) {schema : Handle} {x : Action}
    (hschema : b.items[schema]? = some (.action x))
    (harguments : ∀ t, x.step? b.arena = some t → x.arguments b.arena = t.arguments.map some) :
    ∃ b', Gives (addInstance schema found (some into)) b () b' ∧ b'.arena = b.arena ∧
      Building b₀ a found into noops (appendNew steps (x.step? b.arena).toList) b' := by
  by_cases hground : x.isGround b.arena = true
  · obtain ⟨t, ht⟩ : ∃ t, x.step? b.arena = some t := ⟨_, if_pos hground⟩
    -- the copy is a new object
    have hcopy := gives_copy hschema ht (harguments t ht)
    have hpushed := h.push (.action t.toAction)
    have hitem : (b.items.push (.action t.toAction))[b.items.size]? =
        some (.action t.toAction) := Array.getElem?_push_size
    have hkey : Gives (key b.items.size) { b with items := b.items.push (.action t.toAction) } t.key
        { b with items := b.items.push (.action t.toAction) } := gives_key hitem t.key_toAction
    obtain ⟨f, hf, -⟩ := hpushed.found
    have hknown := hpushed.any_same_key hf t
    rw [ht, Option.toList_some, appendNew, appendNew, appendNew]
    cases hmet : steps.contains t with
    | true =>
      refine ⟨_, (gives_action hschema).bind (gives_arena.bind ?_), ?_, hpushed⟩
      · rw [if_pos hground]
        refine hcopy.bind (hkey.bind ((gives_file hf).bind ?_))
        rw [hknown, hmet]
        exact gives_pure ()
      · rfl
    | false =>
      obtain ⟨b', hnew, harena, hbuilding⟩ := hpushed.file_new hb
        ⟨_, hitem, t.says_toAction a⟩ hf
      refine ⟨b', (gives_action hschema).bind (gives_arena.bind ?_), harena, hbuilding⟩
      rw [if_pos hground]
      refine hcopy.bind (hkey.bind ((gives_file hf).bind ?_))
      rw [hknown, hmet]
      exact hnew
  · have ht : x.step? b.arena = none := if_neg hground
    rw [ht]
    refine ⟨b, (gives_action hschema).bind (gives_arena.bind ?_), rfl, h⟩
    rw [if_neg hground]
    exact gives_pure ()

end Building

/-! ### The search for the instances of one schema -/

section Find

variable {b₀ b : Workbench} {a : Arena} {found into : Handle} {noops steps : List Step}
  {s : Schema} {offset : Nat}

/-- What holds when the search has visited some assignments. -/
def Met (b₀ : Workbench) (a : Arena) (found into : Handle) (noops steps : List Step) (s : Schema)
    (seen : List Arena) (b : Workbench) : Prop :=
  Building b₀ a found into noops (appendNew steps (seen.filterMap s.action.step?)) b

theorem visits_building (hs : s.Regular) (hosts : b.arena.Hosts s.arena offset)
    (ha : a.ConstantsIn b.arena) {schema : Handle}
    (hschema : b₀.items[schema]? = some (.action (s.action.shift offset))) :
    Visits b.arena s.arena offset (addInstance schema found (some into))
      (Met b₀ a found into noops steps s) where
  visit := by
    intro seen b' ρ hρ h hb'
    have hstep : (s.action.shift offset).step? b'.arena =
        s.action.step? (s.arena.withValues ρ) := by rw [hb', hs.step?_graft hosts]
    obtain ⟨b₂, hgives, harena, hbuilding⟩ := h.addInstance (ha.keeps (hosts.keeps hρ hb'))
      (h.item hschema fun _ => Item.noConfusion) fun t ht => by
        rw [hstep] at ht
        rw [hb', hs.arguments_graft hosts]
        exact hs.arguments_eq ht
    refine ⟨b₂, hgives, harena, ?_⟩
    rw [hstep, ← appendNew_append] at hbuilding
    rw [Met, List.filterMap_append, List.filterMap_cons, List.filterMap_nil]
    cases ht : s.action.step? (s.arena.withValues ρ) <;> simpa [ht] using hbuilding
  arena := fun c h => h.withArena c

/-- **The search** finds the instances of a schema that were not found yet, and registers them. -/
theorem gives_find_building (hs : s.Built) (hplaced : s.Placed b.arena offset)
    (ha : a.ConstantsIn b.arena) {schema layer : Handle}
    (hschema : b₀.items[schema]? = some (.action (s.action.shift offset))) {facts : LiteralSet}
    {x : Exclusions} (hlayer : b₀.items[layer]? = some (.factLayer facts x)) {source : FactLayer}
    (hconstant : ∀ l ∈ facts.members, l.isConstant a = true) (hx : x.Says a source.mutexes)
    (hfacts : facts.members.map (·.shown a) = source.facts) (strict : Bool)
    (h : Building b₀ a found into noops steps b) :
    ∃ n b', Gives (find schema layer found (some into) strict) b n b' ∧
      b'.arena = b.arena.graft s.arena offset s.arena.value? ∧
      Building b₀ a found into noops (appendNew steps (s.instances source strict)) b' := by
  have hreg := hs.regular
  have hosts := hplaced.hosts
  have hretains : s.arena.Retains s.arena.value? := fun _ _ => rfl
  have hconstant' : ∀ l ∈ facts.members, l.isConstant b.arena = true := fun l hl =>
    ha.isConstant_literal (hconstant l hl)
  have hsource : facts.layer b.arena source.mutexes = source := by
    have hshown : facts.members.map (·.shown b.arena) = source.facts := by
      rw [← hfacts]
      exact List.map_congr_left fun l hl => ha.shown (hconstant l hl)
    rw [LiteralSet.layer, hshown]
  have hitem : ∀ {steps : List Step} {b' : Workbench}, Building b₀ a found into noops steps b' →
      b'.items[schema]? = some (.action (s.action.shift offset)) := fun h =>
    h.item hschema fun _ => Item.noConfusion
  -- at the start the cells have whatever values they have
  have hstart := gives_clearAction_placed hs hplaced (hitem h) hosts.graft_self.symm
    hosts.value? hplaced.unbound
  have hmet : Met b₀ a found into noops steps s []
      { b with arena := b.arena.graft s.arena offset s.arena.value? } := h.withArena _
  have hreaches : Reaches (Met b₀ a found into noops steps s)
      (underAssignments (facts, x) strict (addInstance schema found (some into))
        (s.action.preconditions.members.map (Literal.shift offset)) [])
      { b with arena := b.arena.graft s.arena offset s.arena.value? } _ :=
    reaches_underAssignments hosts (ha.exclusions hosts.sound hx) hconstant'
      (visits_building hreg hosts ha hschema) (fun l hl => hreg.holds_precondition hl)
      (fun m hm => absurd hm List.not_mem_nil) hretains hmet rfl
  rw [hsource, List.nil_append] at hreaches
  obtain ⟨b₂, hsearch, harena, hbuilding⟩ := hreaches
  rw [List.map_nil, Met, ← hreg.instances_eq] at hbuilding
  -- and at the end they have none
  have hend := gives_clearAction_placed hs hplaced (hitem hbuilding) harena hretains
    fun i _ hc _ => hreg.value?_eq_none hc
  have hinstance : (s.action.shift offset).isInstance = false := by
    rw [Action.isInstance]
    exact congrArg Option.isSome hreg.key
  obtain ⟨f, hf, -⟩ := h.found
  obtain ⟨g, hg, -⟩ := hbuilding.found
  refine ⟨g.instances.length - f.instances.length,
    { b₂ with arena := b.arena.graft s.arena offset s.arena.value? },
    (gives_action (hitem h)).bind ?_, rfl, hbuilding.withArena _⟩
  rw [hinstance]
  refine (gives_factLayer (h.item hlayer fun _ => Item.noConfusion)).bind ((gives_file hf).bind
    (hstart.bind ((hsearch.tryCatch _).bind (hend.bind ?_))))
  exact Gives.bind (gives_file hg) (gives_pure _)

/-- **All schemas of a list**, one after the other. Whatever schema stood on the arena stands there
afterwards. -/
theorem gives_forM_find {layer : Handle} {facts : LiteralSet} {x : Exclusions}
    (hlayer : b₀.items[layer]? = some (.factLayer facts x)) {source : FactLayer}
    (hconstant : ∀ l ∈ facts.members, l.isConstant a = true) (hx : x.Says a source.mutexes)
    (hfacts : facts.members.map (·.shown a) = source.facts) (strict : Bool) :
    ∀ {schemas : List Schema} {handles : List Handle}, (∀ s ∈ schemas, s.Built) →
      ∀ {b : Workbench}, b.arena.Sound → a.ConstantsIn b.arena →
      List.Forall₂ (fun s h => ∃ offset, s.Placed b.arena offset ∧
        b₀.items[h]? = some (.action (s.action.shift offset))) schemas handles →
      ∀ {steps : List Step}, Building b₀ a found into noops steps b →
      ∃ b', Gives (handles.forM fun h => do
          let _ ← find h layer found (some into) strict) b () b' ∧
        b'.arena.Sound ∧ a.ConstantsIn b'.arena ∧
        (∀ {u : Schema} {place : Nat}, u.Built → u.Placed b.arena place →
          u.Placed b'.arena place) ∧
        Building b₀ a found into noops (schemas.foldl
          (fun steps s => appendNew steps (s.instances source strict)) steps) b' := by
  intro schemas
  induction schemas with
  | nil =>
    intro handles _ b hsound ha hplaced steps h
    cases hplaced
    exact ⟨b, gives_pure (), hsound, ha, fun _ => id, h⟩
  | cons s schemas ih =>
    intro handles hbuilt b hsound ha hplaced steps h
    obtain ⟨handle, handles, ⟨offset, hs, hschema⟩, hrest, rfl⟩ :=
      List.forall₂_cons_left_iff.1 hplaced
    have hsbuilt := hbuilt s List.mem_cons_self
    have hretains : s.arena.Retains s.arena.value? := fun _ _ => rfl
    obtain ⟨n, b₁, hfind, harena, hbuilding⟩ :=
      gives_find_building hsbuilt hs ha hschema hlayer hconstant hx hfacts strict h
    have hsound₁ : b₁.arena.Sound := harena ▸ (hs.hosts.revalued_graft hretains).sound
    have ha₁ : a.ConstantsIn b₁.arena :=
      harena ▸ ha.trans (hs.hosts.constantsIn_graft hretains)
    have hplaced₁ : ∀ {u : Schema} {place : Nat}, u.Built → u.Placed b.arena place →
        u.Placed b₁.arena place := fun hu hplaced =>
      harena ▸ hs.graft hsbuilt.regular hu hplaced
    have hrest₁ : List.Forall₂ (fun s h => ∃ offset, s.Placed b₁.arena offset ∧
        b₀.items[h]? = some (.action (s.action.shift offset))) schemas handles := by
      refine ((List.forall₂_and_left _ _).2
        ⟨fun u hu => hbuilt u (List.mem_cons_of_mem s hu), hrest⟩).imp ?_
      rintro u k ⟨hu, place, hplaced, hitem⟩
      exact ⟨place, hplaced₁ hu hplaced, hitem⟩
    obtain ⟨b₂, hfinds, hsound₂, ha₂, hplaced₂, hlast⟩ :=
      ih (fun u hu => hbuilt u (List.mem_cons_of_mem s hu)) hsound₁ ha₁ hrest₁ hbuilding
    exact ⟨b₂, gives_forM_cons (hfind.bind (gives_pure ())) hfinds, hsound₂, ha₂,
      fun hu hplaced => hplaced₂ hu (hplaced₁ hu hplaced), hlast⟩

end Find

/-! ### A layer of given actions -/

theorem gives_insertAction {b : Workbench} {a : Arena} {handle h : Handle} {actions : List Handle}
    {x : Exclusions} (hlayer : b.items[handle]? = some (.actionLayer actions x)) {t : Step}
    (ht : b.IsStep a h t) : Gives (insertAction handle h) b ()
      { b with items := b.items.setIfInBounds handle (.actionLayer (actions ++ [h]) x) } := by
  obtain ⟨y, hy, hmeans⟩ := ht
  have hinstance : y.isInstance = true := by
    rw [Action.isInstance, hmeans.key]
    rfl
  refine (gives_actionLayer hlayer).bind ((gives_action hy).bind ?_)
  rw [hinstance]
  exact gives_put _ _

theorem gives_forM_insertAction {a : Arena} {handle : Handle} {x : Exclusions} :
    ∀ {rest done : List Handle} {b : Workbench},
      b.items[handle]? = some (.actionLayer done x) → (∀ h ∈ rest, ∃ t, b.IsStep a h t) →
      ∃ b', Gives (rest.forM (insertAction handle)) b () b' ∧ b'.arena = b.arena ∧
        b.Leaves b' [handle] ∧ b'.items[handle]? = some (.actionLayer (done ++ rest) x) := by
  intro rest
  induction rest with
  | nil =>
    intro done b hlayer _
    exact ⟨b, gives_pure (), rfl, .refl b _, by rwa [List.append_nil]⟩
  | cons h rest ih =>
    intro done b hlayer hrest
    obtain ⟨t, ht⟩ := hrest h List.mem_cons_self
    have hleaves := b.leaves_set handle (.actionLayer (done ++ [h]) x)
    have hkeeps := hleaves.keepsActions (by simp [hlayer])
    obtain ⟨b', hgives, harena, hleaves', hlast⟩ := ih (Workbench.getElem?_set_self hlayer _)
      fun k hk => (hrest k (List.mem_cons_of_mem h hk)).imp fun _ hu => hu.mono hkeeps
    refine ⟨b', gives_forM_cons (gives_insertAction hlayer ht) hgives, harena,
      (hleaves.trans hleaves').subset (by simp), ?_⟩
    rwa [List.append_assoc] at hlast

/-- **A layer of given actions** is a new object. -/
theorem gives_actionLayerOf {b : Workbench} {a : Arena} {actions : List Handle}
    (hactions : ∀ h ∈ actions, ∃ t, b.IsStep a h t) :
    ∃ b', Gives (actionLayerOf actions) b b.items.size b' ∧ b'.arena = b.arena ∧
      b.Leaves b' [] ∧ b'.items[b.items.size]? = some (.actionLayer actions {}) := by
  have hleaves := b.leaves_push (.actionLayer [] {})
  have hkeeps := hleaves.keepsActions (by simp)
  obtain ⟨b', hgives, harena, hleaves', hlast⟩ := gives_forM_insertAction
    (b := { b with items := b.items.push (.actionLayer [] {}) }) Array.getElem?_push_size
    fun h hh => (hactions h hh).imp fun _ ht => ht.mono hkeeps
  exact ⟨b', (gives_add _).bind (hgives.bind (gives_pure _)), harena, hleaves.of_new hleaves',
    hlast⟩

end Bench

end Strips
