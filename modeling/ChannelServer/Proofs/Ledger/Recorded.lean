import ChannelServer.Proofs.Ledger.Basic
import Mathlib.Data.Set.Finite.Basic

/-!
# What the records of a channel are

The list of a channel is read one record at a time, and by the first record of an identity.  That
this is the same as looking into a table needs an invariant: only top channels have records, every
record names the channel that has it, and no identity has two.  A record of a player who is not
registered ends with the player, so there is none of a player who is not there.

## Main results

* `Recorded.change`: every change keeps the records in order.
* `recorded_of_reachable`: in every reachable session they are in order.
* `Recorded.mem_records_iff`: the list of a channel is its part of the ledger.
-/

namespace ChannelServer

namespace Channel

variable {c : Channel} {identity : Identity} {rights : Rights}

theorem mem_records_setRights {record : Record}
    (h : record ∈ (c.setRights identity rights).records) :
    (record.channel = c.id ∧ record.identity = identity) ∨
      ∃ old ∈ c.records, record.channel = old.channel ∧ record.identity = old.identity := by
  rw [setRights] at h
  cases hpresent : c.record? identity with
  | some old =>
      have hput := @recordSlots_putRecord_of_present c { channel := c.id, identity, rights }
        (by rw [hpresent]; rfl)
      have hmodify : record ∈ (c.recordSlots.modify identity (Record.withRights rights)).entries :=
        hput ▸ h
      obtain ⟨old, hold, heq⟩ := Slots.mem_modify hmodify
      refine .inr ⟨old, hold, ?_⟩
      rcases heq with rfl | rfl
      · exact ⟨rfl, rfl⟩
      · exact ⟨rfl, rfl⟩
  | none =>
      have happend : record ∈
          (c.recordSlots.append { channel := c.id, identity, rights }).entries := by
        rw [← recordSlots_putRecord_of_absent hpresent]
        exact h
      rcases List.mem_append.mp happend with hold | hnew
      · exact .inr ⟨record, hold, rfl, rfl⟩
      · rw [List.mem_singleton.mp hnew]
        exact .inl ⟨rfl, rfl⟩

theorem nodup_identities_setRights (h : (c.records.map (·.identity)).Nodup) :
    ((c.setRights identity rights).records.map (·.identity)).Nodup := by
  have hold : c.recordSlots.ids.Nodup := h
  have hnew : (c.setRights identity rights).recordSlots.ids.Nodup := by
    rw [setRights]
    cases hpresent : c.record? identity with
    | some old =>
        rw [recordSlots_putRecord_of_present (by rw [hpresent]; rfl),
          Slots.ids_modify _ _ (Record.withRights rights) fun _ => rfl]
        exact hold
    | none =>
        rw [recordSlots_putRecord_of_absent hpresent, Slots.ids_append]
        have hfresh : identity ∉ c.recordSlots.ids := Slots.get?_eq_none.mp hpresent
        refine List.nodup_append.mpr ⟨hold, List.nodup_singleton _, fun a ha b hb heq => ?_⟩
        rw [heq, List.mem_singleton.mp hb] at ha
        exact hfresh ha
  exact hnew

end Channel

namespace Registry

/-- The records of all channels are in order. -/
structure Recorded (registry : Registry) : Prop where
  /-- Only top channels have records. -/
  top : ∀ id, registry.recordsOf id ≠ [] → IsTop registry id
  /-- A record names the channel that has it. -/
  own : ∀ id, ∀ record ∈ registry.recordsOf id, record.channel = id
  /-- No identity has two records in one channel. -/
  nodup : ∀ id, ((registry.recordsOf id).map (·.identity)).Nodup
  /-- A player who is not registered is there as long as there is a record. -/
  known : ∀ id, ∀ record ∈ registry.recordsOf id, ∀ who, record.identity = .unregistered who →
    ∃ p, registry.players.get? who = some p

namespace Recorded

variable {registry registry' : Registry}

theorem empty (limits : Limits) : Recorded (.empty limits) := by
  constructor <;> simp [recordsOf, Registry.empty, Slots.get?]

/-! ## What every change keeps -/

/-- If records only go, and with the last one perhaps a top channel, the rest is in order. -/
theorem of_sublist (h : Recorded registry)
    (hrecords : ∀ id, (registry'.recordsOf id).Sublist (registry.recordsOf id))
    (htop : ∀ id, registry'.recordsOf id ≠ [] → IsTop registry id → IsTop registry' id)
    (hknown : ∀ id, ∀ record ∈ registry'.recordsOf id, ∀ who p,
      record.identity = .unregistered who → registry.players.get? who = some p →
        ∃ p', registry'.players.get? who = some p') : Recorded registry' where
  top id hsome := by
    refine htop id hsome (h.top id fun hnil => hsome ?_)
    have hsublist := hrecords id
    rw [hnil] at hsublist
    exact List.eq_nil_of_sublist_nil hsublist
  own id record hrecord := h.own id record ((hrecords id).subset hrecord)
  nodup id := ((hrecords id).map _).nodup (h.nodup id)
  known id record hrecord who hwho := by
    obtain ⟨p, hp⟩ := h.known id record ((hrecords id).subset hrecord) who hwho
    exact hknown id record hrecord who p hwho hp

theorem quiet (h : Recorded registry) (hquiet : Quiet registry registry') : Recorded registry' :=
  h.of_sublist (fun id => by rw [hquiet.records]) (fun id _ => hquiet.top id)
    fun _ _ _ who p _ hp => hquiet.players who p hp

/-- Setting rights moves no channel. -/
theorem isTop_setRights {id id' : ChannelId} {identity : Identity} {rights : Rights} :
    IsTop (registry.withChange id (Channel.setRights identity rights)) id' ↔
      IsTop registry id' := by
  rw [IsTop, IsTop, get?_withChange _ _ fun _ _ => Channel.id_setRights _ _]
  by_cases heq : id' = id
  · rw [if_pos heq]
    cases registry.channels.get? id' <;> simp
  · rw [if_neg heq]

/-- Whoever sets rights in a top channel keeps the records in order. -/
theorem setRights (h : Recorded registry) {id : ChannelId} {c : Channel}
    (hfound : registry.channels.get? id = some c) (htop : c.parent = none) {identity : Identity}
    {rights : Rights}
    (hknown : ∀ who, identity = .unregistered who → ∃ p, registry.players.get? who = some p) :
    Recorded (registry.withChange id (Channel.setRights identity rights)) := by
  have hid : c.id = id := Slots.id_of_get? hfound
  have hself := @get?_setRights _ _ _ identity rights hfound
  constructor
  · intro id' hsome
    by_cases heq : id' = id
    · subst heq
      exact ⟨_, hself, by rw [Channel.parent_setRights, htop]⟩
    · rw [recordsOf_setRights heq] at hsome
      exact isTop_setRights.mpr (h.top id' hsome)
  · intro id' record hrecord
    by_cases heq : id' = id
    · subst heq
      rw [recordsOf_of_found hself] at hrecord
      rcases Channel.mem_records_setRights hrecord with ⟨hchannel, -⟩ | ⟨old, hold, hchannel, -⟩
      · rw [hchannel, hid]
      · rw [hchannel]
        exact h.own id' old (by rw [recordsOf_of_found hfound]; exact hold)
    · rw [recordsOf_setRights heq] at hrecord
      exact h.own id' record hrecord
  · intro id'
    by_cases heq : id' = id
    · subst heq
      have hnodup := h.nodup id'
      rw [recordsOf_of_found hfound] at hnodup
      rw [recordsOf_of_found hself]
      exact Channel.nodup_identities_setRights hnodup
    · rw [recordsOf_setRights heq]
      exact h.nodup id'
  · intro id' record hrecord who hwho
    by_cases heq : id' = id
    · subst heq
      rw [recordsOf_of_found hself] at hrecord
      rcases Channel.mem_records_setRights hrecord with ⟨-, hidentity⟩ | ⟨old, hold, -, hidentity⟩
      · exact hknown who (hidentity.symm.trans hwho)
      · exact h.known id' old (by rw [recordsOf_of_found hfound]; exact hold) who
          (hidentity.symm.trans hwho)
    · rw [recordsOf_setRights heq] at hrecord
      exact h.known id' record hrecord who hwho

theorem graft (h : Recorded registry) {parent child : ChannelId} (hne : parent ≠ child) :
    Recorded (registry.graft parent child) := by
  have hfree : Quiet registry (registry.free child) := .free child
  refine h.of_sublist (fun id => ?_) (fun id hsome htop => ?_)
    fun _ _ _ who p _ hp => hfree.players who p hp
  · rw [recordsOf_graft hne]
    split
    · exact List.nil_sublist _
    · exact List.Sublist.refl _
  · have hother : id ≠ child := by
      intro heq
      rw [recordsOf_graft hne, if_pos heq] at hsome
      exact hsome rfl
    obtain ⟨c, hc, hctop⟩ := hfree.top id htop
    rw [IsTop, Registry.graft, get?_link _ hne, if_neg hother]
    by_cases hparent : id = parent
    · exact ⟨c.adopt child, by rw [if_pos hparent, hc, Option.map_some], hctop⟩
    · exact ⟨c, by rw [if_neg hparent, hc], hctop⟩

theorem remove (h : Recorded registry) (hids : registry.channels.ids.Nodup) (id : ChannelId)
    (c : Channel) : Recorded (registry.remove id c) := by
  refine h.of_sublist (fun id' => ?_) (fun id' hsome htop => ?_)
    fun _ _ _ who p _ hp =>
      ⟨_, (get?_vacate id c.members _ who).trans (by rw [hp, Option.map_some])⟩
  · rw [recordsOf_remove hids]
    split
    · exact List.nil_sublist _
    · exact List.Sublist.refl _
  · have hother : id' ≠ id := by
      intro heq
      rw [recordsOf_remove hids, if_pos heq] at hsome
      exact hsome rfl
    obtain ⟨d, hd, hdtop⟩ := htop
    rw [IsTop, get?_remove hids, if_neg hother]
    by_cases hlisted : id' ∈ c.subchannels
    · exact ⟨d.rise, by rw [if_pos hlisted, hd, Option.map_some], rfl⟩
    · exact ⟨d, by rw [if_neg hlisted, hd], hdtop⟩

theorem withoutPlayer (h : Recorded registry) (who : PlayerId) :
    Recorded (registry.withoutPlayer who) := by
  refine h.of_sublist (fun id => ?_) (fun id _ htop => ?_)
    fun id record hrecord other p hother hp => ?_
  · rw [recordsOf_withoutPlayer]
    exact List.filter_sublist
  · obtain ⟨c, hc, hctop⟩ := htop
    exact ⟨Registry.forget who c, by rw [get?_withoutPlayer, hc, Option.map_some], hctop⟩
  · rw [recordsOf_withoutPlayer] at hrecord
    have hidentity := of_decide_eq_true (List.mem_filter.mp hrecord).2
    have hne : other ≠ who := fun heq => hidentity (by rw [hother, heq])
    exact ⟨p, (Slots.get?_erase_ne _ hne).trans hp⟩

theorem change (h : Recorded registry) (hforest : Forest registry) {way : Way}
    (hchange : Change registry way registry') : Recorded registry' := by
  by_cases hquiet : way ∈ quietWays
  · exact h.quiet (.of_change hquiet hchange)
  cases hchange with
  | graft hattach => exact h.graft hattach.distinct
  | remove _ _ => exact h.remove hforest.distinct _ _
  | setRights owns found known => exact h.setRights found (hforest.top_of_owner owns) known
  | depart _ => exact h.withoutPlayer _
  | _ => exact absurd (by decide) hquiet

/-! ## Lists and ledger -/

/-- The list of a channel is its part of the ledger. -/
theorem mem_records_iff (h : Recorded registry) {id : ChannelId} {c : Channel}
    (hfound : registry.channels.get? id = some c) (record : Record) :
    record ∈ c.records ↔
      record.channel = id ∧ registry.ledger id record.identity = some record.rights := by
  have hrecords := recordsOf_of_found hfound
  have hnodup : c.recordSlots.ids.Nodup := by
    have hidentities := h.nodup id
    rw [hrecords] at hidentities
    exact hidentities
  rw [ledger_of_found hfound, Channel.rights?, Channel.record?_eq]
  constructor
  · intro hmem
    have hget : c.recordSlots.get? record.identity = some record :=
      Slots.get?_of_mem hnodup hmem
    exact ⟨h.own id record (by rw [hrecords]; exact hmem), by rw [hget, Option.map_some]⟩
  · intro hentry
    obtain ⟨hchannel, hrights⟩ := hentry
    obtain ⟨old, hold, heq⟩ := Option.map_eq_some_iff.mp hrights
    have hmem : old ∈ c.records := Slots.mem_of_get? hold
    have hown := h.own id old (by rw [hrecords]; exact hmem)
    have hidentity : old.identity = record.identity := Slots.id_of_get? hold
    have hsame : old = record := by
      obtain ⟨channel, identity, rights⟩ := old
      obtain ⟨channel', identity', rights'⟩ := record
      simp only at hown hchannel hidentity heq
      rw [hown, hchannel, hidentity, heq]
    rw [← hsame]
    exact hmem

/-- There is no entry of a player who is not there. -/
theorem ledger_of_unknown (h : Recorded registry) {who : PlayerId}
    (hunknown : registry.players.get? who = none) (id : ChannelId) :
    registry.ledger id (.unregistered who) = none := by
  rw [ledger, Option.map_eq_none_iff, List.find?_eq_none]
  intro record hrecord hidentity
  obtain ⟨p, hp⟩ := h.known id record hrecord who (of_decide_eq_true hidentity)
  rw [hunknown] at hp
  cases hp

/-- What this means for the channels of a registry. -/
theorem of_mem (h : Recorded registry) (hids : registry.channels.ids.Nodup) {c : Channel}
    (hc : c ∈ registry.channels.entries) :
    (c.records ≠ [] → c.parent = none) ∧ (∀ record ∈ c.records, record.channel = c.id) ∧
      (c.records.map (·.identity)).Nodup ∧
      ∀ record, record ∈ c.records ↔
        record.channel = c.id ∧ registry.ledger c.id record.identity = some record.rights := by
  have hfound : registry.channels.get? c.id = some c := Slots.get?_of_mem hids hc
  have hrecords := recordsOf_of_found hfound
  refine ⟨fun hsome => ?_, fun record hrecord => ?_, ?_, h.mem_records_iff hfound⟩
  · obtain ⟨d, hd, htop⟩ := h.top c.id (by rw [hrecords]; exact hsome)
    rw [hfound] at hd
    cases hd
    exact htop
  · exact h.own c.id record (by rw [hrecords]; exact hrecord)
  · have hnodup := h.nodup c.id
    rw [hrecords] at hnodup
    exact hnodup

end Recorded

/-- There are finitely many entries in the ledger of a registry. -/
theorem finite_ledger (registry : Registry) :
    {key : ChannelId × Identity | (registry.ledger key.1 key.2).isSome}.Finite := by
  let keys : List (ChannelId × Identity) := registry.channels.entries.flatMap fun c =>
    c.records.map fun record => (c.id, record.identity)
  apply (List.finite_toSet keys).subset
  intro key hkey
  obtain ⟨rights, hrights⟩ := Option.isSome_iff_exists.mp hkey
  obtain ⟨record, hrecord, -⟩ := Option.map_eq_some_iff.mp hrights
  have hmem := List.mem_of_find?_eq_some hrecord
  have hidentity : record.identity = key.2 := by simpa using List.find?_some hrecord
  cases hfound : registry.channels.get? key.1 with
  | none =>
      rw [recordsOf, hfound] at hmem
      cases hmem
  | some c =>
      rw [recordsOf_of_found hfound] at hmem
      have hid : c.id = key.1 := Slots.id_of_get? hfound
      refine List.mem_flatMap.mpr ⟨c, Slots.mem_of_get? hfound, ?_⟩
      exact List.mem_map.mpr ⟨record, hmem, by rw [hid, hidentity]⟩

/-- In every reachable session the records are in order. -/
theorem recorded_of_reachable {store : Store} {limits : Limits} {session : Session}
    (h : Session.Reachable store limits session) : Recorded session.registry :=
  invariant_of_forest (.empty limits) (fun _ _ _ hforest h hchange => h.change hforest hchange) h

end Registry

end ChannelServer
