import ChannelServer.Proofs.Change

/-!
# Discarding without a depth

`discardWithin` counts a depth down so that it ends, and `discard` starts it with one more than there
are channels.  The depth is never used up: destroying a channel leaves one channel less, nothing in
a discard adds one, and so whatever is below a channel is discarded with fewer channels than the
depth that is left.  Any two depths above the number of channels do the same.

This holds in every registry, also where the references between channels do not agree.

## Main results

* `size_of_destroyChannel`: a channel that is destroyed is one channel less.
* `discardWithin_congr`: any two depths above the number of channels do the same.
* `discard_apply`: a discard in terms of the discards of what was below.
-/

namespace ChannelServer.Registry

variable {registry : Registry}

/-! ## The number of channels -/

theorem size_eq_length_ids (registry : Registry) :
    registry.channels.size = registry.channels.ids.length := by
  rw [Slots.ids, List.length_map, Slots.size]

theorem ids_free (id : ChannelId) :
    (registry.free id).channels.ids = registry.channels.ids := by
  unfold free
  split
  · exact ids_unlink _ _
  · rfl

/-- A channel that is destroyed is one channel less. -/
theorem size_of_destroyChannel {id : ChannelId} {children : List ChannelId} {registry' : Registry}
    (hok : destroyChannel id registry = .ok children registry') :
    registry'.channels.size + 1 = registry.channels.size := by
  by_cases h : ∃ c, registry.channels.get? id = some c ∧ ParentFound registry c
  · obtain ⟨c, hfound, hparents⟩ := h
    obtain ⟨freed, hfreed⟩ := exists_get?_free id hfound
    rw [destroyChannel_ok hfound hparents hfreed] at hok
    cases hok
    have hmem : freed ∈ (registry.free id).channels.entries := Slots.mem_of_get? hfreed
    have hnamed : Slots.named id freed = true := Slots.named_iff.mpr (Slots.id_of_get? hfreed)
    have herase : ((registry.free id).channels.erase id).ids.length + 1 =
        (registry.free id).channels.ids.length := by
      rw [Slots.ids, Slots.ids, List.length_map, List.length_map, Slots.erase]
      exact List.length_eraseP_add_one hmem hnamed
    rw [size_eq_length_ids, size_eq_length_ids, ids_remove, herase, ids_free]
  · obtain ⟨fault, herror⟩ := destroyChannel_refused h
    rw [herror] at hok
    cases hok

/-- There are no more channels than before. -/
def Thins (registry registry' : Registry) : Prop :=
  registry'.channels.size ≤ registry.channels.size

theorem thins_refl (registry : Registry) : Thins registry registry := Nat.le_refl _

theorem thins_trans (r r' r'' : Registry) (h : Thins r r') (h' : Thins r' r'') : Thins r r'' :=
  Nat.le_trans h' h

theorem settles_destroyChannel_thins (id : ChannelId) (registry : Registry) :
    Settles Thins (destroyChannel id) registry := by
  obtain ⟨children, registry', hok, -⟩ | hrefused := @settles_destroyChannel registry id
  · have hsize := size_of_destroyChannel hok
    exact .inl ⟨children, registry', hok, by unfold Thins; omega⟩
  · exact .inr hrefused

theorem succeeds_discardWithin_thins (depth : Nat) (id : ChannelId) (fault : Fault)
    (report : ImportReport) : Succeeds Thins (discardWithin depth id fault report) :=
  succeeds_discardWithin thins_refl thins_trans settles_destroyChannel_thins depth id fault report

/-! ## The depth -/

/-- What happens to a channel on any level. -/
theorem discardWithin_succ_apply (depth : Nat) (id : ChannelId) (fault : Fault)
    (report : ImportReport) (registry : Registry) :
    discardWithin (depth + 1) id fault report registry =
      match destroyChannel id registry with
      | .error _ registry' => .ok report registry'
      | .ok children registry' =>
        children.foldlM
          (fun report child => discardWithin depth child (.badArgument (.parentDiscarded id)) report)
          (report.discard id fault) registry' := by
  simp only [discardWithin, bind_apply, attempt_apply]
  cases destroyChannel id registry <;> rfl

/-- Two actions that do the same while there are few channels, and do not add any, do the same one
after the other. -/
theorem foldlM_congr_of_size {f g : ImportReport → ChannelId → Action ImportReport} {bound : Nat}
    (hsame : ∀ report child registry, registry.channels.size ≤ bound →
      f report child registry = g report child registry)
    (hthins : ∀ report child, Succeeds Thins (g report child)) (children : List ChannelId)
    (report : ImportReport) (hsize : registry.channels.size ≤ bound) :
    children.foldlM f report registry = children.foldlM g report registry := by
  induction children generalizing report registry with
  | nil => rfl
  | cons child children ih =>
      obtain ⟨report', registry', hok, hless⟩ := hthins report child registry
      rw [List.foldlM_cons, List.foldlM_cons, bind_apply, bind_apply, hsame _ _ _ hsize, hok]
      exact ih report' (Nat.le_trans hless hsize)

/-- Any two depths above the number of channels do the same. -/
theorem discardWithin_congr {depth depth' : Nat} (h : registry.channels.size < depth)
    (h' : registry.channels.size < depth') (id : ChannelId) (fault : Fault)
    (report : ImportReport) :
    discardWithin depth id fault report registry =
      discardWithin depth' id fault report registry := by
  induction depth generalizing depth' id fault report registry with
  | zero => exact absurd h (Nat.not_lt_zero _)
  | succ depth ih =>
      obtain ⟨depth', rfl⟩ := Nat.exists_eq_add_one_of_ne_zero (Nat.ne_zero_of_lt h')
      rw [discardWithin_succ_apply, discardWithin_succ_apply]
      cases hdestroy : destroyChannel id registry with
      | error _ registry' => rfl
      | ok children registry' =>
          have hsize := size_of_destroyChannel hdestroy
          refine foldlM_congr_of_size (fun report child _ hless => ?_)
            (fun report child => succeeds_discardWithin_thins depth' child _ report)
            children _ (Nat.le_refl _)
          exact ih (by omega) (by omega) child _ report

theorem discard_eq_discardWithin (id : ChannelId) (fault : Fault) (report : ImportReport)
    (registry : Registry) :
    discard id fault report registry =
      discardWithin (registry.channels.size + 1) id fault report registry := rfl

theorem succeeds_discard (id : ChannelId) (fault : Fault) (report : ImportReport) :
    Succeeds Thins (discard id fault report) :=
  fun registry => succeeds_discardWithin_thins _ id fault report registry

/-- A discard destroys its channel and then discards what was below it, one after the other.  If the
channel cannot be destroyed, nothing is noted. -/
theorem discard_apply (id : ChannelId) (fault : Fault) (report : ImportReport)
    (registry : Registry) :
    discard id fault report registry =
      match destroyChannel id registry with
      | .error _ registry' => .ok report registry'
      | .ok children registry' =>
        children.foldlM
          (fun report child => discard child (.badArgument (.parentDiscarded id)) report)
          (report.discard id fault) registry' := by
  rw [discard_eq_discardWithin, discardWithin_succ_apply]
  cases hdestroy : destroyChannel id registry with
  | error _ registry' => rfl
  | ok children registry' =>
      have hsize := size_of_destroyChannel hdestroy
      refine foldlM_congr_of_size (fun report child registry'' hless => ?_)
        (fun report child => succeeds_discard child _ report) children _ (Nat.le_refl _)
      rw [discard_eq_discardWithin]
      exact discardWithin_congr (by omega) (Nat.lt_succ_self _) child _ report

end ChannelServer.Registry
