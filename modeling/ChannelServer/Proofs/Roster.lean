import ChannelServer.Proofs.Change

/-!
# Which ids are in use

There are many ways to change an entity, but few to put one in or to take one out.  Channels,
players and bans are put in by one way each; every other way leaves the ids in use as they are, or
takes some of them out and keeps the order of the rest.  Whatever is put in has an id that nobody
else has, and takes a slot that is left.

## Main results

* `filled_channels`, `filled_players`, `filled_bans`: only one way puts in.
* `rostered_of_reachable`: the ids of every kind are distinct, and there are slots for all of them.
-/

namespace ChannelServer

namespace Slots

variable {α κ : Type} [Identified α κ] {slots slots' slots'' : Slots α}

/-- No entity is new, and those that are left are in the order of before. -/
structure Shrinks (slots slots' : Slots α) : Prop where
  capacity : slots'.capacity = slots.capacity
  ids : slots'.ids.Sublist slots.ids

theorem Shrinks.refl (slots : Slots α) : slots.Shrinks slots := ⟨rfl, .refl _⟩

theorem Shrinks.trans (h : slots.Shrinks slots') (h' : slots'.Shrinks slots'') :
    slots.Shrinks slots'' :=
  ⟨h'.capacity.trans h.capacity, h'.ids.trans h.ids⟩

theorem Shrinks.of_ids_eq (hcapacity : slots'.capacity = slots.capacity)
    (hids : slots'.ids = slots.ids) : slots.Shrinks slots' :=
  ⟨hcapacity, hids ▸ .refl _⟩

theorem Shrinks.length_le (h : slots.Shrinks slots') :
    slots'.entries.length ≤ slots.entries.length := by
  have hlength := h.ids.length_le
  simpa only [Slots.ids, List.length_map] using hlength

theorem shrinks_erase [DecidableEq κ] (slots : Slots α) (id : κ) : slots.Shrinks (slots.erase id) :=
  ⟨rfl, List.eraseP_sublist.map _⟩

theorem shrinks_modify [DecidableEq κ] (slots : Slots α) (id : κ) (f : α → α)
    (hf : ∀ entry, Identified.id (f entry) = Identified.id entry) :
    slots.Shrinks (slots.modify id f) :=
  .of_ids_eq rfl (ids_modify slots id f hf)

/-- The ids are distinct, and there is a slot for each of them. -/
structure Orderly (slots : Slots α) (limit : Nat) : Prop where
  distinct : slots.ids.Nodup
  capacity : slots.capacity = limit
  room : slots.entries.length ≤ limit

end Slots

namespace Registry

variable {registry registry' : Registry} {way : Way}

/-! ## What has to do with channels only -/

theorem exists_graft_eq (registry : Registry) (parent child : ChannelId) :
    ∃ channels, registry.graft parent child = { registry with channels } := by
  unfold graft free
  split <;> exact ⟨_, rfl⟩

theorem exists_crown_eq (registry : Registry) (id : ChannelId) :
    ∃ channels, registry.crown id = { registry with channels } := by
  unfold crown
  split
  · split <;> exact ⟨_, rfl⟩
  · exact ⟨_, rfl⟩

theorem exists_unseat_eq (registry : Registry) (who : PlayerId) (p : Player) :
    ∃ channels, registry.unseat who p = { registry with channels } := by
  unfold unseat
  split <;> exact ⟨_, rfl⟩

/-! ## The changes -/

namespace Change

theorem limits_eq (h : Change registry way registry') : registry'.limits = registry.limits := by
  cases h with
  | @graft parent child _ _ _ =>
      obtain ⟨channels, heq⟩ := registry.exists_graft_eq parent child
      rw [heq]
  | @crown id _ =>
      obtain ⟨channels, heq⟩ := registry.exists_crown_eq id
      rw [heq]
  | @quit who p _ =>
      obtain ⟨channels, heq⟩ := registry.exists_unseat_eq who p
      rw [Registry.quit, heq]
  | _ => rfl

/-- Channels are put in by `add` only. -/
theorem shrinks_channels (h : Change registry way registry') (hway : way ≠ .add) :
    registry.channels.Shrinks registry'.channels := by
  cases h with
  | add _ => exact absurd rfl hway
  | unlink _ => exact .of_ids_eq rfl (ids_unlink _ _)
  | @graft parent child _ _ _ =>
      have hfree : registry.channels.Shrinks (registry.free child).channels := by
        unfold Registry.free
        split
        · exact .of_ids_eq rfl (ids_unlink _ _)
        · exact .refl _
      exact hfree.trans (.of_ids_eq rfl (ids_link _ _))
  | @remove id c _ _ =>
      refine (registry.channels.shrinks_erase id).trans ?_
      exact .of_ids_eq (capacity_orphan _ _) (ids_orphan _ _)
  | @crown id _ =>
      have hcrown (channels : Slots Channel) : channels.Shrinks (channels.modify id .crown) :=
        channels.shrinks_modify id _ fun _ => rfl
      unfold Registry.crown
      split
      · split
        · exact .refl _
        · exact (registry.channels.shrinks_modify _ Channel.resignDefault fun _ => rfl).trans
            (hcrown _)
      · exact hcrown _
  | edit found edited =>
      refine .of_ids_eq rfl (Slots.ids_modify_found _ _ _ fun c hc => ?_)
      rw [found] at hc
      cases hc
      exact edited.id
  | setRights _ _ _ => exact registry.channels.shrinks_modify _ _ fun _ => Channel.id_setRights _ _
  | arrive _ _ _ => exact .refl _
  | depart _ => exact .of_ids_eq rfl (Slots.ids_map _ _ fun _ => rfl)
  | seat _ =>
      exact registry.channels.shrinks_modify _ _ fun c => by
        rw [Channel.receive_eq]
        rfl
  | quit _ =>
      unfold Registry.quit unseat
      split
      · exact registry.channels.shrinks_modify _ _ fun _ => rfl
      · exact .refl _
  | ban _ _ => exact .refl _
  | unban => exact .refl _

/-- Players are put in by `arrive` only. -/
theorem shrinks_players (h : Change registry way registry') (hway : way ≠ .arrive) :
    registry.players.Shrinks registry'.players := by
  cases h with
  | arrive _ _ _ => exact absurd rfl hway
  | @graft parent child _ _ _ =>
      obtain ⟨channels, heq⟩ := registry.exists_graft_eq parent child
      exact heq ▸ .refl _
  | remove _ _ => exact .of_ids_eq (capacity_vacate _ _ _) (ids_vacate _ _ _)
  | @crown id _ =>
      obtain ⟨channels, heq⟩ := registry.exists_crown_eq id
      exact heq ▸ .refl _
  | depart _ => exact registry.players.shrinks_erase _
  | seat _ => exact registry.players.shrinks_modify _ _ fun _ => rfl
  | quit _ => exact registry.players.shrinks_modify _ _ fun _ => rfl
  | _ => exact .refl _

/-- Bans are put in by `ban` only. -/
theorem shrinks_bans (h : Change registry way registry') (hway : way ≠ .ban) :
    registry.bans.Shrinks registry'.bans := by
  cases h with
  | @graft parent child _ _ _ =>
      obtain ⟨channels, heq⟩ := registry.exists_graft_eq parent child
      exact heq ▸ .refl _
  | @crown id _ =>
      obtain ⟨channels, heq⟩ := registry.exists_crown_eq id
      exact heq ▸ .refl _
  | @quit who p _ =>
      obtain ⟨channels, heq⟩ := registry.exists_unseat_eq who p
      rw [Registry.quit, heq]
      exact .refl _
  | ban _ _ => exact absurd rfl hway
  | unban => exact registry.bans.shrinks_erase _
  | _ => exact .refl _

end Change

/-! ## What is put in, and what is taken out -/

/-- One way of changing a registry puts entities into one of its containers, one at a time, each
with a free id and into a free slot.  The other ways put nothing in. -/
structure Filled {α κ : Type} [Identified α κ] [DecidableEq κ] (read : Registry → Slots α)
    (filling : Way) : Prop where
  append : ∀ {r r'}, Change r filling r' → ∃ entry,
    (read r).get? (Identified.id entry) = none ∧
      (read r).entries.length < (read r).capacity ∧ read r' = (read r).append entry
  shrinks : ∀ {r way r'}, Change r way r' → way ≠ filling → (read r).Shrinks (read r')

theorem filled_channels : Filled Registry.channels .add where
  append hchange := by
    cases hchange with
    | add hadd => exact ⟨_, hadd.free, hadd.room, rfl⟩
  shrinks := Change.shrinks_channels

theorem filled_players : Filled Registry.players .arrive where
  append hchange := by
    cases hchange with
    | arrive fresh _ room => exact ⟨_, fresh, room, rfl⟩
  shrinks := Change.shrinks_players

theorem filled_bans : Filled Registry.bans .ban where
  append hchange := by
    cases hchange with
    | ban fresh room => exact ⟨_, fresh, room, rfl⟩
  shrinks := Change.shrinks_bans

namespace Filled

variable {α κ : Type} [Identified α κ] [DecidableEq κ] {read : Registry → Slots α} {filling : Way}

theorem distinct (h : Filled read filling) (hchange : Change registry way registry')
    (hdistinct : (read registry).ids.Nodup) : (read registry').ids.Nodup := by
  by_cases hway : way = filling
  · subst hway
    obtain ⟨entry, hfree, -, happend⟩ := h.append hchange
    rw [happend]
    exact Slots.nodup_ids_append hdistinct hfree
  · exact (h.shrinks hchange hway).ids.nodup hdistinct

/-- The number of slots stays, and there are enough of them. -/
theorem room (h : Filled read filling) (hchange : Change registry way registry')
    (hroom : (read registry).entries.length ≤ (read registry).capacity) :
    (read registry').capacity = (read registry).capacity ∧
      (read registry').entries.length ≤ (read registry').capacity := by
  by_cases hway : way = filling
  · subst hway
    obtain ⟨entry, -, hslot, happend⟩ := h.append hchange
    rw [happend]
    refine ⟨rfl, ?_⟩
    rw [Slots.append, List.length_append, List.length_singleton]
    exact hslot
  · have hshrinks := h.shrinks hchange hway
    refine ⟨hshrinks.capacity, ?_⟩
    rw [hshrinks.capacity]
    exact Nat.le_trans hshrinks.length_le hroom

theorem orderly (h : Filled read filling) (hchange : Change registry way registry') {limit : Nat}
    (horderly : (read registry).Orderly limit) : (read registry').Orderly limit := by
  obtain ⟨hcapacity, hroom⟩ := h.room hchange (horderly.capacity ▸ horderly.room)
  rw [horderly.capacity] at hcapacity
  exact ⟨h.distinct hchange horderly.distinct, hcapacity, hcapacity ▸ hroom⟩

end Filled

/-- The ids of every kind are distinct, and the limits are kept. -/
structure Rostered (limits : Limits) (registry : Registry) : Prop where
  channels : registry.channels.Orderly limits.channels
  players : registry.players.Orderly limits.players
  bans : registry.bans.Orderly (min limits.bans maxBans)

namespace Rostered

variable {limits : Limits}

theorem empty (limits : Limits) : Rostered limits (.empty limits) where
  channels := ⟨List.nodup_nil, rfl, Nat.zero_le _⟩
  players := ⟨List.nodup_nil, rfl, Nat.zero_le _⟩
  bans := ⟨List.nodup_nil, rfl, Nat.zero_le _⟩

theorem change (h : Rostered limits registry) (hchange : Change registry way registry') :
    Rostered limits registry' where
  channels := filled_channels.orderly hchange h.channels
  players := filled_players.orderly hchange h.players
  bans := filled_bans.orderly hchange h.bans

end Rostered

/-- In every reachable session the ids of every kind are distinct, and there are slots for all of
them. -/
theorem rostered_of_reachable {store : Store} {limits : Limits} {session : Session}
    (h : Session.Reachable store limits session) : Rostered limits session.registry :=
  Session.invariant_of_reachable (.empty limits) (fun _ _ _ h hchange => h.change hchange) h

end Registry

end ChannelServer
