import ChannelServer.Proofs.Import.Account
import ChannelServer.Proofs.Presence

/-!
# Ids and slots over a run

Whatever happens to a registry, the ids of its channels, of its players and of its bans are
distinct, and there are no more of them than slots.  New entities come after those that were there,
whose order stays, so every container is in the order in which its entities came; an import, which
may take over many channels at once, puts them in the order of the batch.

Channels, players and bans that are added get the smallest id that is free.  Only channels can come
with ids of their own, and these may lie anywhere, so running out of ids is a matter of the ids
themselves and not of how many there are.  Bans cannot run out of ids before they run out of slots.

## Main results

* `addChannel_iff`, `addPlayer_iff`, `addBan_iff`: the answer of an addition.
* `exists_addChannel_iff`, `exists_addPlayer_iff`, `exists_addBan_iff`: whether there is one.
* `follows_of_filled`: the order after an operation, whatever the container.
* `numbering_of_reachable`: all of it in every reachable session.
-/

namespace ChannelServer

open Numbered (number number_injective)

namespace Slots

variable {α κ : Type} [Identified α κ] {slots slots' slots'' : Slots α}

/-- Some of the entities that were there, in their order, and after them new ones. -/
def Follows (slots slots' : Slots α) : Prop :=
  ∃ kept added : List κ, kept.Sublist slots.ids ∧ slots'.ids = kept ++ added ∧
    ∀ id ∈ added, id ∉ slots.ids

theorem Shrinks.follows (h : slots.Shrinks slots') : slots.Follows slots' :=
  ⟨slots'.ids, [], h.ids, (List.append_nil _).symm, fun _ hid => absurd hid List.not_mem_nil⟩

/-- All the entities that were there, and after them new ones. -/
def Extends (slots slots' : Slots α) : Prop :=
  ∃ added : List κ, slots'.ids = slots.ids ++ added ∧ ∀ id ∈ added, id ∉ slots.ids

theorem Extends.refl (slots : Slots α) : slots.Extends slots :=
  ⟨[], (List.append_nil _).symm, fun _ hid => absurd hid List.not_mem_nil⟩

theorem Extends.trans (h : slots.Extends slots') (h' : slots'.Extends slots'') :
    slots.Extends slots'' := by
  obtain ⟨added, hids, hnew⟩ := h
  obtain ⟨added', hids', hnew'⟩ := h'
  rw [hids] at hids' hnew'
  refine ⟨added ++ added', by rw [hids', List.append_assoc], fun id hid => ?_⟩
  rcases List.mem_append.mp hid with hid | hid
  · exact hnew id hid
  · exact fun hold => hnew' id hid (List.mem_append_left _ hold)

theorem extends_append {entry : α} (hfree : Identified.id entry ∉ slots.ids) :
    slots.Extends (slots.append entry) := by
  refine ⟨[Identified.id entry], ids_append slots entry, fun id hid => ?_⟩
  rw [List.mem_singleton.mp hid]
  exact hfree

theorem Extends.follows (h : slots.Extends slots') : slots.Follows slots' := by
  obtain ⟨added, hids, hnew⟩ := h
  exact ⟨slots.ids, added, .refl _, hids, hnew⟩

end Slots

namespace Registry

variable {registry : Registry}

/-- With the next id, a channel is admissible unless something else is wrong with it. -/
theorem Sound.admissible_iff (h : Sound registry) {id : ChannelId}
    (hnext : registry.channels.Next id) {info : Metadata} :
    Admissible registry id info ↔ info.check = .ok () ∧
      (info.flags.has .default = true →
        ∀ c ∈ registry.channels.entries, c.info.flags.has .default = false) ∧
      registry.channels.entries.length < registry.channels.capacity := by
  constructor
  · intro hadd
    refine ⟨hadd.valid, fun hdefault c hc => ?_, hadd.room⟩
    exact h.proper.not_default (hadd.single hdefault) (Slots.get?_of_mem h.forest.distinct hc)
  · rintro ⟨hvalid, hsingle, hroom⟩
    refine ⟨hvalid, fun heq => ?_, hnext.get?_eq_none, fun hdefault => ?_, hroom⟩
    · have hbounded := hnext.bounded
      rw [heq] at hbounded
      exact absurd hbounded (by decide)
    · rintro ⟨c, hc, -, hflag⟩
      rw [hsingle hdefault c hc] at hflag
      cases hflag

end Registry

namespace Session

variable {store : Store} {limits : Limits} {session : Session}

/-! ## What an addition answers -/

theorem addChannel_iff {info : Metadata} {id : ChannelId} :
    (session.step store (.addChannel info)).1 = .ok (.channel id) ↔
      session.registry.channels.Next id ∧ Registry.Admissible session.registry id info :=
  answer_next_iff (Registry.addChannel_givesNext info) rfl Answer.channel.inj

theorem addPlayer_iff {newcomer : Newcomer} {secret : UInt32} {id : PlayerId} :
    (session.step store (.addPlayer newcomer secret)).1 = .ok (.player id) ↔
      session.registry.players.Next id ∧
        session.registry.players.entries.length < session.registry.players.capacity :=
  answer_next_iff (Registry.addPlayer_givesNext newcomer secret) rfl Answer.player.inj

theorem addBan_iff {ban : NewBan} {id : BanId} :
    (session.step store (.addBan ban)).1 = .ok (.ban id) ↔
      session.registry.bans.Next id ∧
        session.registry.bans.entries.length < session.registry.bans.capacity :=
  answer_next_iff (Registry.addBan_givesNext ban) rfl Answer.ban.inj

/-- A channel is added exactly if it is in order, and a slot and an id are left. -/
theorem exists_addChannel_iff (hsound : Registry.Sound session.registry) {info : Metadata} :
    (∃ id, (session.step store (.addChannel info)).1 = .ok (.channel id)) ↔
      info.check = .ok () ∧
        (info.flags.has .default = true →
          ∀ c ∈ session.registry.channels.entries, c.info.flags.has .default = false) ∧
        session.registry.channels.entries.length < session.registry.channels.capacity ∧
        ∃ id : ChannelId, 1 ≤ number id ∧ number id ≤ Registry.maxChannelId ∧
          id ∉ session.registry.channels.ids := by
  simp only [addChannel_iff]
  constructor
  · rintro ⟨id, hnext, hadd⟩
    obtain ⟨hvalid, hsingle, hroom⟩ := (hsound.admissible_iff hnext).mp hadd
    exact ⟨hvalid, hsingle, hroom, id, hnext.positive, hnext.bounded, hnext.free⟩
  · rintro ⟨hvalid, hsingle, hroom, hfree⟩
    obtain ⟨id, hnext⟩ := Slots.exists_next_iff.mpr hfree
    exact ⟨id, hnext, (hsound.admissible_iff hnext).mpr ⟨hvalid, hsingle, hroom⟩⟩

/-- A player is added exactly if a slot and an id are left. -/
theorem exists_addPlayer_iff {newcomer : Newcomer} {secret : UInt32} :
    (∃ id, (session.step store (.addPlayer newcomer secret)).1 = .ok (.player id)) ↔
      session.registry.players.entries.length < session.registry.players.capacity ∧
        ∃ id : PlayerId, 1 ≤ number id ∧ id ∉ session.registry.players.ids := by
  simp only [addPlayer_iff]
  constructor
  · rintro ⟨id, hnext, hroom⟩
    exact ⟨hroom, id, hnext.positive, hnext.free⟩
  · rintro ⟨hroom, id, hpos, hunused⟩
    -- Every word is small enough for a player.
    have hmax : number id ≤ Registry.maxPlayerId := Nat.le_of_lt_succ id.value.toNat_lt
    obtain ⟨id, hnext⟩ := Slots.exists_next_iff.mpr ⟨id, hpos, hmax, hunused⟩
    exact ⟨id, hnext, hroom⟩

/-- With no more slots than ids, a ban is added exactly if a slot is left. -/
theorem exists_addBan_iff (hcapacity : session.registry.bans.capacity ≤ Registry.maxBans)
    {ban : NewBan} :
    (∃ id, (session.step store (.addBan ban)).1 = .ok (.ban id)) ↔
      session.registry.bans.entries.length < session.registry.bans.capacity := by
  simp only [addBan_iff]
  constructor
  · rintro ⟨id, -, hroom⟩
    exact hroom
  · intro hroom
    obtain ⟨id, hnext⟩ := Slots.exists_next_of_length (Nat.lt_of_lt_of_le hroom hcapacity)
    exact ⟨id, hnext, hroom⟩

/-- What is added is the last. -/
theorem ids_of_answer {α κ : Type} [Identified α κ] [Numbered κ] {read : Registry → Slots α}
    {action : Registry.Action κ} {answer : κ → Answer} {operation : Operation}
    {condition : κ → Prop} {after : κ → Registry}
    (h : Registry.GivesNext action session.registry (read session.registry) condition after)
    (hperform : operation.perform store = onRegistry action >>= fun id => pure (answer id))
    (hanswer : ∀ {id id'}, answer id = answer id' → id = id')
    (hlast : ∀ id, (read (after id)).ids = (read session.registry).ids ++ [id]) {id : κ}
    (hok : (session.step store operation).1 = .ok (answer id)) :
    (read (session.step store operation).2.registry).ids =
      (read session.registry).ids ++ [id] := by
  obtain ⟨-, -, hregistry⟩ := given_of_answer h hperform hanswer hok
  rw [hregistry, hlast]

/-! ## The order after an operation -/

/-- An operation that puts something in does nothing else, or it puts nothing in: either way what
was there and is left is in its order, and what is new comes after it. -/
theorem follows_of_filled {α κ : Type} [Identified α κ] [DecidableEq κ]
    {read : Registry → Slots α} {filling : Registry.Way} (h : Registry.Filled read filling)
    {operation : Operation}
    (hways : (∀ way ∈ operation.ways, way = filling) ∨ ∀ way ∈ operation.ways, way ≠ filling) :
    (read session.registry).Follows (read (session.step store operation).2.registry) := by
  rcases hways with hfilling | hother
  · refine Slots.Extends.follows ?_
    refine step_relates (R := fun r r' => (read r).Extends (read r'))
      (fun _ => .refl _) (fun _ _ _ => .trans) fun r way r' hway hchange => ?_
    obtain ⟨entry, hfree, -, happend⟩ := h.append (hfilling way hway ▸ hchange)
    rw [happend]
    exact Slots.extends_append (Slots.get?_eq_none.mp hfree)
  · refine Slots.Shrinks.follows ?_
    exact step_relates (R := fun r r' => (read r).Shrinks (read r'))
      (fun _ => .refl _) (fun _ _ _ => .trans) fun r way r' hway hchange =>
        h.shrinks hchange (hother way hway)

/-- The channels that an import brings come after those that were there, in the order of the
batch. -/
theorem ids_step_batch (h : Reachable store limits session) {operation : Operation}
    {entries : List Wire.Entry} (hbatch : operation.batch? = some entries) :
    ∃ added : List ChannelId, added.Sublist (entries.map (·.id)) ∧
      (∀ id ∈ added, id ∉ session.registry.channels.ids) ∧
      (session.step store operation).2.registry.channels.ids =
        session.registry.channels.ids ++ added := by
  have hregistry := registry_step_batch store (Registry.sound_of_reachable h) hbatch
  have hids := Registry.ids_imported_eq session.registry entries
  rw [← hregistry] at hids
  have hdistinct := (Registry.rostered_of_reachable (h.step operation)).channels.distinct
  rw [hids] at hdistinct
  refine ⟨_, (Registry.survivors_sublist _ entries).map _, fun id hid hold => ?_, hids⟩
  exact (List.nodup_append.mp hdistinct).2.2 id hold id hid rfl

theorem follows_channels (h : Reachable store limits session) (operation : Operation) :
    session.registry.channels.Follows
      (session.step store operation).2.registry.channels := by
  have hbatch {entries : List Wire.Entry} (hbatch : operation.batch? = some entries) :
      session.registry.channels.Follows
        (session.step store operation).2.registry.channels := by
    obtain ⟨added, -, hnew, hids⟩ := ids_step_batch h hbatch
    exact Slots.Extends.follows ⟨added, hids, hnew⟩
  cases operation with
  | importBatch entries => exact hbatch rfl
  | importStream stream => exact hbatch rfl
  | _ => exact follows_of_filled Registry.filled_channels (by simp [Operation.ways])

theorem follows_players (operation : Operation) :
    session.registry.players.Follows (session.step store operation).2.registry.players :=
  follows_of_filled Registry.filled_players <| by
    cases operation <;> simp [Operation.ways, Registry.importing]

theorem follows_bans (operation : Operation) :
    session.registry.bans.Follows (session.step store operation).2.registry.bans :=
  follows_of_filled Registry.filled_bans <| by
    cases operation <;> simp [Operation.ways, Registry.importing]

/-! ## In every reachable session -/

/-- In every reachable session the ids of the channels, of the players and of the bans are distinct,
their number is within the limits, and they are in the order in which they came; the reserved id is
given to no channel.  An addition that succeeds answers the smallest id from 1 on that is not in
use, and puts it at the end.  It succeeds exactly if a slot and an id are left and, for a channel,
the metadata is valid and there is no second default channel; for a ban it is enough that a slot is
left, and the number that was found always fits into its id. -/
theorem numbering_of_reachable (h : Reachable store limits session) :
    session.registry.channels.Orderly limits.channels ∧
    session.registry.players.Orderly limits.players ∧
    session.registry.bans.Orderly (min limits.bans 65535) ∧
    (∀ c ∈ session.registry.channels.entries, c.id ≠ .reserved) ∧
    (∀ operation,
      let after := (session.step store operation).2.registry
      session.registry.channels.Follows after.channels ∧
        session.registry.players.Follows after.players ∧
        session.registry.bans.Follows after.bans ∧
        ∀ entries, operation.batch? = some entries →
          ∃ added : List ChannelId, added.Sublist (entries.map (·.id)) ∧
            after.channels.ids = session.registry.channels.ids ++ added) ∧
    (∀ info,
      let added := session.step store (.addChannel info)
      ((∃ id, added.1 = .ok (.channel id)) ↔
        info.check = .ok () ∧
          (info.flags.has .default = true →
            ∀ c ∈ session.registry.channels.entries, c.info.flags.has .default = false) ∧
          session.registry.channels.entries.length < limits.channels ∧
          ∃ id : ChannelId, 1 ≤ id.value.toNat ∧ id.value.toNat ≤ 4294967294 ∧
            id ∉ session.registry.channels.ids) ∧
        ∀ id, added.1 = .ok (.channel id) → session.registry.channels.Next id ∧
          added.2.registry.channels.ids = session.registry.channels.ids ++ [id]) ∧
    (∀ newcomer secret,
      let added := session.step store (.addPlayer newcomer secret)
      ((∃ id, added.1 = .ok (.player id)) ↔
        session.registry.players.entries.length < limits.players ∧
          ∃ id : PlayerId, 1 ≤ id.value.toNat ∧ id ∉ session.registry.players.ids) ∧
        ∀ id, added.1 = .ok (.player id) → session.registry.players.Next id ∧
          added.2.registry.players.ids = session.registry.players.ids ++ [id]) ∧
    (∀ ban,
      let added := session.step store (.addBan ban)
      ((∃ id, added.1 = .ok (.ban id)) ↔
        session.registry.bans.entries.length < min limits.bans 65535) ∧
        ∀ id, added.1 = .ok (.ban id) → session.registry.bans.Next id ∧
          added.2.registry.bans.ids = session.registry.bans.ids ++ [id]) ∧
    ∀ free, smallestFree? (session.registry.bans.entries.map (·.id.value.toNat))
        Registry.maxBans = some free →
      (UInt16.ofNat free).toNat = free := by
  have hsound := Registry.sound_of_reachable h
  obtain ⟨hchannels, hplayers, hbans⟩ := Registry.rostered_of_reachable h
  refine ⟨hchannels, hplayers, hbans, fun c hc => ?_, fun operation => ?_, fun info => ?_,
    fun newcomer secret => ?_, fun ban => ?_, fun free hfree => ?_⟩
  · exact (hsound.proper.sound (Slots.get?_of_mem hchannels.distinct hc)).named
  · refine ⟨follows_channels h operation, follows_players operation, follows_bans operation,
      fun entries hbatch => ?_⟩
    obtain ⟨added, horder, -, hids⟩ := ids_step_batch h hbatch
    exact ⟨added, horder, hids⟩
  · rw [← hchannels.capacity]
    exact ⟨exists_addChannel_iff hsound, fun id hadded =>
      ⟨(addChannel_iff.mp hadded).1, ids_of_answer (Registry.addChannel_givesNext info) rfl
        Answer.channel.inj (fun _ => Slots.ids_append _ _) hadded⟩⟩
  · rw [← hplayers.capacity]
    exact ⟨exists_addPlayer_iff, fun id hadded =>
      ⟨(addPlayer_iff.mp hadded).1, ids_of_answer (Registry.addPlayer_givesNext newcomer secret) rfl
        Answer.player.inj (fun _ => Slots.ids_append _ _) hadded⟩⟩
  · have hcapacity : session.registry.bans.capacity = min limits.bans 65535 := hbans.capacity
    rw [← hcapacity]
    exact ⟨exists_addBan_iff (hcapacity ▸ Nat.min_le_right _ _), fun id hadded =>
      ⟨(addBan_iff.mp hadded).1, ids_of_answer (Registry.addBan_givesNext ban) rfl
        Answer.ban.inj (fun _ => Slots.ids_append _ _) hadded⟩⟩
  · obtain ⟨-, hmax, -, -⟩ := smallestFree?_spec hfree
    exact (Numbered.number_ofNumber hmax : number (Numbered.ofNumber free : BanId) = free)

/-- An import brings the ids 0, 2 and the last one that a channel may have.  The next channel gets
the id 1. -/
theorem numbering_of_far_import :
    let batch : List Wire.Entry :=
      [⟨⟨0⟩, none, .preset⟩, ⟨⟨0xFFFFFFFE⟩, none, .preset⟩, ⟨⟨2⟩, none, .preset⟩]
    let session := ((start (.empty {})).step .none (.importBatch batch)).2
    session.registry.channels.ids = [⟨0⟩, ⟨0xFFFFFFFE⟩, ⟨2⟩] ∧
      (session.step .none (.addChannel .preset)).1 = .ok (.channel ⟨1⟩) := by
  intro batch session
  obtain ⟨-, -, -, -, -, hadd, -⟩ := @numbering_of_reachable .none {} session (.step _ .start)
  obtain ⟨hiff, hnext⟩ := hadd .preset
  have hids : session.registry.channels.ids = [⟨0⟩, ⟨0xFFFFFFFE⟩, ⟨2⟩] := by decide +kernel
  have hsize : session.registry.channels.entries.length = 3 := by decide +kernel
  have hfree : (⟨1⟩ : ChannelId) ∉ session.registry.channels.ids := by
    rw [hids]
    decide
  have hsingle : Metadata.preset.flags.has .default = true →
      ∀ c ∈ session.registry.channels.entries, c.info.flags.has .default = false := fun hdefault =>
    absurd hdefault (by decide)
  obtain ⟨id, hok⟩ := hiff.mpr
    ⟨by decide, hsingle, hsize ▸ (by decide), ⟨1⟩, by decide, by decide, hfree⟩
  obtain ⟨⟨hpos, -, -, hleast⟩, -⟩ := hnext id hok
  have hone : number id = number (⟨1⟩ : ChannelId) := by
    have hnumber : number (⟨1⟩ : ChannelId) = 1 := rfl
    by_contra hne
    exact hfree (hleast ⟨1⟩ (by decide) (by omega))
  exact ⟨hids, number_injective hone ▸ hok⟩

end Session

end ChannelServer
