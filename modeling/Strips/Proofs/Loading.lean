import Strips.Proofs.Searching

/-!
# Loading schemas

A schema that was read has an arena of its own. Loading it puts its cells behind those that are
there, in a scope of their own, so the schema stands on the larger arena. It stays there when
further schemas are moved in and when its parameters are bound.

## Main definitions

* `Workbench.Carries` – an object is a schema whose cells stand on the arena.

## Main results

* `Schema.Built.placed_moveInto` – a schema stands where it was moved to.
* `Schema.Placed.append`, `Schema.Built.placed_bind` – and stays there.
* `Bench.gives_load` – the schemas of a problem that was loaded stand on the arena.
-/

namespace Strips

namespace Schema

variable {s : Schema} {b c : Arena} {offset : Nat}

/-- **A schema stands where it was moved to.** -/
theorem Built.placed_moveInto (h : s.Built) (hb : b.Sound) (scope : Nat) :
    s.Placed (s.moveInto b scope).2 b.size := by
  have hs := h.marked.sound
  refine ⟨⟨h.regular.loose, h.regular.isSome_value?, hb.append hs scope, ?_, fun i hi => ?_,
    fun i hi => ?_, fun i hi => ?_, fun i hi k => ?_⟩, fun i hi hc _ => ?_⟩
  · exact Nat.le_of_eq (Arena.size_append b s.arena scope).symm
  · exact (hb.members_append_right hs scope i).trans (by rw [h.marked.allNew.members]; rfl)
  · exact Arena.isConstant_append_right b s.arena scope i
  · exact hb.value?_append_right hs scope i
  · have hpartners := Arena.partners_append_right b s.arena scope i
    rw [moveInto, hpartners, List.mem_map]
    exact exists_congr fun j => and_congr_right fun _ => eq_comm
  · rw [moveInto, hb.value?_append_right hs]
    exact h.regular.value?_eq_none hc

/-- It stays there when the cells of another arena are added. -/
theorem Placed.append (h : s.Placed b offset) (hc : c.Sound) (scope : Nat) :
    s.Placed (b.append c scope) offset := by
  have hb := h.hosts.sound
  refine ⟨⟨h.hosts.loose, h.hosts.isSome_value?, hb.append hc scope, ?_, fun i hi => ?_,
    fun i hi => ?_, fun i hi => ?_, fun i hi k => ?_⟩, fun i hi hconstant hparameter => ?_⟩
  · rw [Arena.size_append]
    exact Nat.le_trans h.hosts.fits (Nat.le_add_right _ _)
  · rw [hb.members_append_left hc scope (h.hosts.lt hi), h.hosts.members i hi]
  · rw [Arena.isConstant_append_left b c scope (h.hosts.lt hi), h.hosts.isConstant i hi]
  · rw [hb.value?_append_left hc scope (h.hosts.lt (Arena.lt_size_of_isConstant hi)),
      h.hosts.value? i hi]
  · rw [Arena.partners_append_left b c scope (h.hosts.lt hi), h.hosts.mem_partners i hi]
  · rw [hb.value?_append_left hc scope (h.hosts.lt hi), h.unbound i hi hconstant hparameter]

/-- It stays there when values change, if only its parameters are bound. -/
theorem Built.placed_of_revalued (h : s.Built) (hplaced : s.Placed b offset)
    {ν : Nat → Option String} (hc : b.Revalued ν c)
    (hν : ∀ i < s.arena.size, i ∉ s.action.parameters → ν (i + offset) = b.value? (i + offset)) :
    s.Placed c offset := by
  have hosts := hplaced.hosts
  refine ⟨⟨hosts.loose, hosts.isSome_value?, hc.sound, ?_, fun i hi => ?_, fun i hi => ?_,
    fun i hi => ?_, fun i hi k => ?_⟩, fun i hi hconstant hparameter => ?_⟩
  · rw [hc.same.size]
    exact hosts.fits
  · rw [hc.same.members, hosts.members i hi]
  · rw [hc.same.isConstant, hosts.isConstant i hi]
  · rw [hc.value?, hν i (Arena.lt_size_of_isConstant hi), hosts.value? i hi]
    intro hp
    obtain ⟨-, -, -, hvariable⟩ := h.mem_parameters.1 hp
    rw [hi] at hvariable
    cases hvariable
  · rw [hc.partners, hosts.mem_partners i hi]
  · rw [hc.value?, hν i hi hparameter, hplaced.unbound i hi hconstant hparameter]

/-- It stays there when a parameter is bound. -/
theorem Built.placed_bind (h : s.Built) (hplaced : s.Placed b offset) {i : Nat}
    (hi : i ∈ s.action.parameters) (v : String) :
    s.Placed (b.bind (i + offset) v).2 offset := by
  have hosts := hplaced.hosts
  obtain ⟨l, hl, hil, -⟩ := h.mem_parameters.1 hi
  have hlt : i < s.arena.size := h.regular.holds l hl i hil
  refine h.placed_of_revalued hplaced (hosts.sound.bind (hosts.lt hlt) v).2 fun j hj hjp => ?_
  split
  · rw [Arena.valuesWith, if_neg]
    rw [hosts.root hj, hosts.root hlt]
    intro hji
    exact hjp (Nat.add_right_cancel hji ▸ hi)
  · rfl

end Schema

/-! ### Loading a problem -/

namespace Workbench

/-- An object is a schema whose cells stand on the arena. -/
def Carries (b : Workbench) (h : Handle) (s : Schema) : Prop :=
  ∃ offset, s.Placed b.arena offset ∧ b.items[h]? = some (.action (s.action.shift offset))

theorem getElem?_push_of_some {items : Array Item} {h : Handle} {x y : Item}
    (hx : items[h]? = some x) : (items.push y)[h]? = some x := by
  obtain ⟨hlt, -⟩ := Array.getElem?_eq_some_iff.1 hx
  rw [Array.getElem?_push, if_neg (Nat.ne_of_lt hlt), hx]

end Workbench

namespace Bench

/-- One schema after the other is moved in, and what was there stays. -/
theorem gives_mapM_moveInto : ∀ {schemas : List Schema}, (∀ s ∈ schemas, s.Built) →
    ∀ {b : Workbench}, b.arena.Sound → ∃ handles b',
      Gives (schemas.mapM fun s => do
        let (a, arena) := s.moveInto (← arena) (← newScope)
        setArena arena
        add (.action a)) b handles b' ∧
      b'.arena.Sound ∧ List.Forall₂ (fun s h => b'.Carries h s) schemas handles ∧
      ∀ {h : Handle} {s : Schema}, b.Carries h s → b'.Carries h s
  | [], _, b, hb => ⟨[], b, gives_pure [], hb, .nil, id⟩
  | s :: schemas, hschemas, b, hb => by
    have hs := hschemas s List.mem_cons_self
    have hrest := fun t ht => hschemas t (List.mem_cons_of_mem s ht)
    have hsound := hs.marked.sound
    -- the workbench after the first schema
    let b₁ : Workbench :=
      { b with
        arena := b.arena.append s.arena b.scopes
        scopes := b.scopes + 1
        items := b.items.push (.action (s.action.shift b.arena.size)) }
    have hadd : b₁.Carries b.items.size s :=
      ⟨b.arena.size, hs.placed_moveInto hb b.scopes, Array.getElem?_push_size⟩
    have hkeep : ∀ {h : Handle} {t : Schema}, b.Carries h t → b₁.Carries h t := by
      rintro h t ⟨offset, hplaced, hitem⟩
      exact ⟨offset, hplaced.append hsound b.scopes, Workbench.getElem?_push_of_some hitem⟩
    obtain ⟨handles, b', hgives, hb', hcarries, hkeep'⟩ :=
      gives_mapM_moveInto hrest (b := b₁) (hb.append hsound b.scopes)
    refine ⟨b.items.size :: handles, b', ?_, hb', .cons (hkeep' hadd) hcarries,
      fun h => hkeep' (hkeep h)⟩
    rw [List.mapM_cons]
    have hfirst : Gives (do
        let (a, arena) := s.moveInto (← arena) (← newScope)
        setArena arena
        add (.action a)) b b.items.size b₁ := rfl
    exact hfirst.bind (hgives.bind (gives_pure _))

/-- **Loading a problem.** Its schemas stand on the arena, and what was there before stays. -/
theorem gives_load {p : Problem} (hp : ∀ s ∈ p.schemas, s.Built) {b : Workbench}
    (hb : b.arena.Sound) : ∃ handles b',
      Gives (load p) b (handles, ⟨p.initial.map Fact.literal⟩, ⟨p.goals.map Fact.literal⟩) b' ∧
      b'.arena.Sound ∧ List.Forall₂ (fun s h => b'.Carries h s) p.schemas handles ∧
      ∀ {h : Handle} {s : Schema}, b.Carries h s → b'.Carries h s := by
  obtain ⟨handles, b', hgives, hrest⟩ := gives_mapM_moveInto hp hb
  exact ⟨handles, b', hgives.bind (gives_pure _), hrest⟩

end Bench

end Strips
