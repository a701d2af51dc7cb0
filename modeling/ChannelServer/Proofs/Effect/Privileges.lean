import ChannelServer.Proofs.Effect.Players

/-!
# What the operations on privileges do

A channel keeps a list of records, at most one for each identity that ever asked.  All three
operations of a session, and the taking over of stored records, come down to `setRights`, which
puts rights in the place of what the record of an identity says, or adds a record.  To look at the
privileges of an identity is to set what is there already.

The store only hears of this: what it answers changes neither the registry nor the answer.  `made`
and `worth` say which records it hears of.
-/

namespace ChannelServer

/-- Records are found by the identity that they are about. -/
instance : Identified Record Identity := ⟨Record.identity⟩

/-- The record with other rights. -/
def Record.withRights (rights : Rights) (record : Record) : Record := { record with rights }

namespace Channel

variable {c : Channel}

/-! ## The records of one channel -/

/-- The records of a channel as a container, so that what is known of containers can be used.  How
many slots it has is of no importance. -/
def recordSlots (channel : Channel) : Slots Record := ⟨0, channel.records⟩

/-- What the record of an identity says, if there is one. -/
def rights? (identity : Identity) (channel : Channel) : Option Rights :=
  (channel.record? identity).map (·.rights)

/-- The channel with what an identity may do in its group. -/
def setRights (identity : Identity) (rights : Rights) (channel : Channel) : Channel :=
  channel.putRecord { channel := channel.id, identity, rights }

/-- To put a record into a channel changes its records and nothing else. -/
theorem putRecord_eq (record : Record) :
    c.putRecord record = { c with records := (c.putRecord record).records } := by
  unfold putRecord
  split <;> rfl

theorem setRights_eq (identity : Identity) (rights : Rights) :
    c.setRights identity rights = { c with records := (c.setRights identity rights).records } :=
  putRecord_eq _

@[simp] theorem id_putRecord (record : Record) : (c.putRecord record).id = c.id := by
  rw [putRecord_eq]

@[simp] theorem parent_putRecord (record : Record) : (c.putRecord record).parent = c.parent := by
  rw [putRecord_eq]

@[simp] theorem parent_setRights (identity : Identity) (rights : Rights) :
    (c.setRights identity rights).parent = c.parent :=
  parent_putRecord _

@[simp] theorem id_setRights (identity : Identity) (rights : Rights) :
    (c.setRights identity rights).id = c.id :=
  id_putRecord _

theorem record?_eq (identity : Identity) : c.record? identity = c.recordSlots.get? identity := rfl

theorem identity_of_record? {identity : Identity} {record : Record}
    (h : c.record? identity = some record) : record.identity = identity :=
  Slots.id_of_get? (record?_eq identity ▸ h)

theorem recordSlots_putRecord_of_present {record : Record}
    (h : (c.record? record.identity).isSome = true) :
    (c.putRecord record).recordSlots =
      c.recordSlots.modify record.identity (Record.withRights record.rights) := by
  rw [putRecord, if_pos h]
  rfl

theorem recordSlots_putRecord_of_absent {record : Record}
    (h : c.record? record.identity = none) :
    (c.putRecord record).recordSlots = c.recordSlots.append record := by
  rw [putRecord, h]
  rfl

/-- Two channels that only differ in their records are equal if the records are. -/
theorem putRecord_eq_of_recordSlots {c' : Channel} {record : Record}
    (hrest : { c' with records := [] } = { c with records := [] })
    (h : (c.putRecord record).recordSlots = c'.recordSlots) : c.putRecord record = c' := by
  have hput : { c.putRecord record with records := [] } = { c with records := [] } :=
    congrArg (fun channel => { channel with records := [] }) (putRecord_eq record)
  obtain ⟨id, info, password, parent, subchannels, members, records⟩ := c'
  cases hc : c.putRecord record
  simp only [hc, recordSlots, mk.injEq, Slots.mk.injEq, true_and] at hput hrest h ⊢
  simp_all

theorem rights?_putRecord (record : Record) (other : Identity) :
    (c.putRecord record).rights? other =
      if other = record.identity then some record.rights else c.rights? other := by
  simp only [rights?, record?_eq]
  cases hold : c.record? record.identity with
  | some old =>
      rw [recordSlots_putRecord_of_present (by rw [hold]; rfl),
        Slots.get?_modify _ _ _ (Record.withRights record.rights) fun _ => rfl]
      split
      · rename_i heq
        rw [heq, ← record?_eq, hold]
        rfl
      · rfl
  | none =>
      rw [recordSlots_putRecord_of_absent hold, Slots.get?_append]
      by_cases heq : other = record.identity
      · have hrecord : Identified.id record = record.identity := rfl
        rw [if_pos heq, heq, ← record?_eq, hold, Option.none_or, if_pos hrecord]
        rfl
      · rw [if_neg heq, if_neg fun h => heq h.symm, Option.or_none]

theorem rights?_setRights (identity other : Identity) (rights : Rights) :
    (c.setRights identity rights).rights? other =
      if other = identity then some rights else c.rights? other :=
  rights?_putRecord _ other

/-- Setting what is there changes nothing. -/
theorem setRights_self {identity : Identity} {record : Record}
    (h : c.record? identity = some record) : c.setRights identity record.rights = c := by
  refine putRecord_eq_of_recordSlots rfl ?_
  rw [recordSlots_putRecord_of_present (by rw [h]; rfl)]
  apply Slots.modify_eq_self
  intro old hold
  rw [← record?_eq, h] at hold
  cases hold
  rfl

/-- If there is a record, putting another one in its place only changes the rights. -/
theorem putRecord_eq_setRights {record : Record}
    (h : record.channel = c.id ∨ (c.record? record.identity).isSome = true) :
    c.putRecord record = c.setRights record.identity record.rights := by
  rcases h with hid | hpresent
  · rw [setRights, ← hid]
  · rw [setRights, putRecord, putRecord, if_pos hpresent, if_pos hpresent]

end Channel

/-- Who has the rights set finds them set. -/
theorem Registry.get?_setRights {registry : Registry} {id : ChannelId} {c : Channel}
    {identity : Identity} {rights : Rights} (hfound : registry.channels.get? id = some c) :
    (registry.withChange id (Channel.setRights identity rights)).channels.get? id =
      some (c.setRights identity rights) := by
  rw [get?_withChange _ _ fun _ _ => Channel.id_setRights _ _, if_pos rfl, hfound, Option.map_some]

namespace Session

variable {session : Session} {store : Store}

/-! ## Looking at privileges -/

@[simp] theorem onRegistry_apply {α : Type} (action : Registry.Action α) (session : Session) :
    onRegistry action session =
      match action session.registry with
      | .ok answer registry => .ok answer { session with registry }
      | .error fault registry => .error fault { session with registry } := rfl

@[simp] theorem ask_apply {α : Type} (question : Registry → Except Fault α) (session : Session) :
    ask question session =
      match question session.registry with
      | .ok answer => .ok answer session
      | .error fault => .error fault session := by
  simp only [ask, onRegistry_apply, Registry.ask_apply]
  cases question session.registry <;> rfl

/-- What is handed over of a record: the record itself, if it is worth storing. -/
def worth (owner : Channel) (record : Record) : List Record :=
  if owner.storesPrivileges && record.identity.isRegistered then [record] else []

/-- A record is kept without fail, and the registry does not notice. -/
theorem keep_apply (store : Store) (owner : Channel) (record : Record) (session : Session) :
    ∃ kept : Session, keep store owner record session = .ok () kept ∧
      kept.registry = session.registry ∧
      kept.handed = session.handed ++ worth owner record := by
  unfold keep worth
  split
  · refine ⟨_, rfl, ?_, ?_⟩
    · simp only
      split <;> rfl
    · simp only
      split <;> rfl
  · exact ⟨session, rfl, rfl, (List.append_nil _).symm⟩

/-- The record of an identity in a channel, or the empty one that is made when it is missing. -/
def recordOf (owner : Channel) (identity : Identity) : Record :=
  (owner.record? identity).getD { channel := owner.id, identity }

theorem identity_recordOf (owner : Channel) (identity : Identity) :
    (recordOf owner identity).identity = identity := by
  unfold recordOf
  cases h : owner.record? identity with
  | none => rfl
  | some record => exact Channel.identity_of_record? h

theorem rights_recordOf (owner : Channel) (identity : Identity) :
    (recordOf owner identity).rights = (owner.rights? identity).getD .none := by
  unfold recordOf Channel.rights?
  cases owner.record? identity <;> rfl

/-- The registry after somebody looked for the privileges of an identity. -/
def looked (owner : Channel) (identity : Identity) (registry : Registry) : Registry :=
  registry.withChange owner.id
    (Channel.setRights identity ((owner.rights? identity).getD .none))

/-- What is handed over when somebody looks for the privileges of an identity: the empty record, if
it has to be made. -/
def made (owner : Channel) (identity : Identity) : List Record :=
  match owner.record? identity with
  | some _ => []
  | none => worth owner { channel := owner.id, identity }

theorem locate_ok (store : Store) {who : PlayerId} {place : ChannelId} {p : Player}
    {owner : Channel} (hp : session.registry.players.get? who = some p)
    (howner : session.registry.owner place = .ok owner)
    (hfound : session.registry.channels.get? owner.id = some owner) :
    ∃ after : Session,
      locate store who place session = .ok (owner, recordOf owner p.identity) after ∧
        after.registry = looked owner p.identity session.registry ∧
        after.handed = session.handed ++ made owner p.identity := by
  have hrights : (owner.rights? p.identity).getD .none = (recordOf owner p.identity).rights :=
    (rights_recordOf owner p.identity).symm
  rw [looked, hrights]
  unfold locate recordOf made
  simp only [bind_apply, ask_apply, Registry.player_eq_ok.mpr hp, howner]
  cases hrecord : owner.record? p.identity with
  | some record =>
      refine ⟨session, rfl, ?_, (List.append_nil _).symm⟩
      have hsame : session.registry.channels.modify owner.id
          (Channel.setRights p.identity record.rights) = session.registry.channels :=
        Slots.modify_eq_self fun c hc => by
          rw [hfound] at hc
          cases hc
          exact Channel.setRights_self hrecord
      simp only [Option.getD_some, Registry.withChange, hsame]
  | none =>
      obtain ⟨kept, hkeep, hregistry, hhanded⟩ := keep_apply store owner
        { channel := owner.id, identity := p.identity } session
      have hupdate := Registry.updateChannel_ok
        (fun c => c.putRecord { channel := owner.id, identity := p.identity }) hfound
      rw [← hregistry] at hupdate
      refine ⟨_, by simp [hkeep, hupdate]; rfl, ?_, ?_⟩
      · simp only [Option.getD_none, Registry.withChange, hregistry]
        congr 1
        apply Slots.modify_congr
        intro c hc
        rw [hfound] at hc
        cases hc
        rfl
      · exact hhanded

theorem privileges_ok (store : Store) {who : PlayerId} {place : ChannelId} {p : Player}
    {owner : Channel} (hp : session.registry.players.get? who = some p)
    (howner : session.registry.owner place = .ok owner)
    (hfound : session.registry.channels.get? owner.id = some owner) :
    ∃ after : Session, privileges store who place session = .ok (recordOf owner p.identity) after ∧
      after.registry = looked owner p.identity session.registry ∧
      after.handed = session.handed ++ made owner p.identity := by
  obtain ⟨after, hlocate, hregistry, hhanded⟩ := locate_ok store hp howner hfound
  exact ⟨after, by simp [privileges, hlocate], hregistry, hhanded⟩

/-! ## Changing privileges -/

theorem changeRights_ok (store : Store) {who : PlayerId} {place : ChannelId} {p : Player}
    {owner : Channel} (change : Rights → Rights) (hp : session.registry.players.get? who = some p)
    (howner : session.registry.owner place = .ok owner)
    (hfound : session.registry.channels.get? owner.id = some owner) :
    ∃ after : Session,
      changeRights store who place change session =
        .ok (change ((owner.rights? p.identity).getD .none)) after ∧
      after.registry = (looked owner p.identity session.registry).withChange owner.id
        (Channel.setRights p.identity (change ((owner.rights? p.identity).getD .none))) ∧
      after.handed = session.handed ++ made owner p.identity ++
        worth owner ((recordOf owner p.identity).withRights
          (change ((owner.rights? p.identity).getD .none))) := by
  obtain ⟨found, hlocate, hregistry, hhanded⟩ := locate_ok store hp howner hfound
  let old := (owner.rights? p.identity).getD .none
  let changed := (recordOf owner p.identity).withRights (change old)
  have hidentity : changed.identity = p.identity := identity_recordOf owner p.identity
  have hlooked : found.registry.channels.get? owner.id =
      some (owner.setRights p.identity old) := by
    rw [hregistry]
    exact Registry.get?_setRights hfound
  have hpresent : ((owner.setRights p.identity old).record? changed.identity).isSome = true := by
    have hrights := Channel.rights?_setRights (c := owner) p.identity p.identity old
    rw [if_pos rfl] at hrights
    rw [hidentity]
    exact Option.isSome_map.symm.trans (congrArg Option.isSome hrights)
  have hupdate := Registry.updateChannel_ok (fun c => c.putRecord changed) hlooked
  obtain ⟨kept, hkeep, hkept, hhanded'⟩ := keep_apply store owner changed
    { found with registry := found.registry.withChange owner.id (·.putRecord changed) }
  refine ⟨kept, ?_, ?_, ?_⟩
  · have hrecord : { recordOf owner p.identity with
        rights := change (recordOf owner p.identity).rights } = changed := by
      rw [rights_recordOf]
      rfl
    rw [changeRights]
    simp only [bind_apply, hlocate, onRegistry_apply, hrecord, hupdate, pure_apply]
    rw [Registry.withChange] at hkeep
    rw [hkeep, rights_recordOf]
  · rw [hkept, ← hregistry]
    simp only [Registry.withChange]
    congr 1
    apply Slots.modify_congr
    intro c hc
    rw [hlooked] at hc
    cases hc
    rw [Channel.putRecord_eq_setRights (.inr hpresent), hidentity]
    rfl
  · rw [hhanded', hhanded]

theorem locate_refused (store : Store) {who : PlayerId} {place : ChannelId}
    (h : session.registry.players.get? who = none ∨
      ∃ fault, session.registry.owner place = .error fault) :
    ∃ fault, locate store who place session = .error fault session := by
  unfold locate
  cases hp : session.registry.players.get? who with
  | none => exact ⟨_, by simp [Registry.player_eq_error hp]; rfl⟩
  | some p =>
      obtain ⟨fault, hfault⟩ := h.resolve_left (by rw [hp]; exact Option.some_ne_none p)
      exact ⟨fault, by simp [Registry.player_eq_ok.mpr hp, hfault]⟩

theorem privileges_refused (store : Store) {who : PlayerId} {place : ChannelId}
    (h : session.registry.players.get? who = none ∨
      ∃ fault, session.registry.owner place = .error fault) :
    ∃ fault, privileges store who place session = .error fault session := by
  obtain ⟨fault, hfault⟩ := locate_refused store h
  exact ⟨fault, by simp [privileges, hfault]⟩

theorem changeRights_refused (store : Store) {who : PlayerId} {place : ChannelId}
    (change : Rights → Rights) (h : session.registry.players.get? who = none ∨
      ∃ fault, session.registry.owner place = .error fault) :
    ∃ fault, changeRights store who place change session = .error fault session := by
  obtain ⟨fault, hfault⟩ := locate_refused store h
  exact ⟨fault, by simp [changeRights, hfault]⟩

end Session

/-! ## Taking over stored records -/

namespace Registry

variable {registry : Registry}

/-- Stored records are taken over for accounts and top channels. -/
def Loadable (registry : Registry) (record : Record) : Prop :=
  record.identity.isRegistered = true ∧ IsTop registry record.channel

theorem loadRecord?_of_loadable {record : Record} (h : Loadable registry record) :
    registry.loadRecord? record = some (registry.withChange record.channel
      (Channel.setRights record.identity record.rights)) := by
  obtain ⟨hidentity, c, hfound, htop⟩ := h
  have hcongr : registry.channels.modify record.channel (·.putRecord record) =
      registry.channels.modify record.channel
        (Channel.setRights record.identity record.rights) := by
    refine Slots.modify_congr fun c' hc' => Channel.putRecord_eq_setRights (.inl ?_)
    exact (Slots.id_of_get? hc').symm
  simp [loadRecord?, hfound, hidentity, isTop_iff.mpr htop, hcongr, withChange]

theorem loadRecord?_of_not_loadable {record : Record} (h : ¬ Loadable registry record) :
    registry.loadRecord? record = none := by
  unfold loadRecord?
  cases hfound : registry.channels.get? record.channel with
  | none => rfl
  | some c =>
      have hnot : ¬ (record.identity.isRegistered && c.isTop) = true := fun hboth => by
        rw [Bool.and_eq_true, isTop_iff] at hboth
        exact h ⟨hboth.1, c, hfound, hboth.2⟩
      exact if_neg hnot

/-- Taking over records never fails: each is taken over or passed by. -/
theorem loadRecords_cons (record : Record) (records : List Record) :
    (Loadable registry record ∧
      leaves (loadRecords (record :: records)) registry = leaves (loadRecords records)
        (registry.withChange record.channel
          (Channel.setRights record.identity record.rights))) ∨
      (¬ Loadable registry record ∧
        leaves (loadRecords (record :: records)) registry =
          leaves (loadRecords records) registry) := by
  by_cases h : Loadable registry record
  · refine .inl ⟨h, ?_⟩
    simp only [leaves, loadRecords, bind_apply, get_apply, loadRecord?_of_loadable h, set_apply]
    cases loadRecords records (registry.withChange record.channel
      (Channel.setRights record.identity record.rights)) <;> rfl
  · refine .inr ⟨h, ?_⟩
    simp only [leaves, loadRecords, bind_apply, get_apply, loadRecord?_of_not_loadable h]

end Registry

end ChannelServer
