import ChannelServer.Proofs.Import.Outcome
import ChannelServer.Proofs.Ledger.Recorded

/-!
# What a session does to the ledger

`Ledger.after` says what each operation is to make of the ledger, without any record: which entry is
set, and which entries are dropped.  Every operation of a reachable session makes this of the ledger
of its registry, and what it answers is what the ledger says.

The entry that an operation on privileges is about is found by two questions only, who owns the
place and who the player is.  So it does not matter whether one asks in a subchannel or in its
parent, nor which of the players of one account asks.

## Main results

* `ledger_step`: an operation does to the ledger what `Ledger.after` says.
* `ledger_run`: the same for a sequence of operations.
* `ledger_refinement`: the records of a reachable session are a ledger, and its operations work on
  it.
-/

namespace ChannelServer

namespace Registry

/-- The entry that is meant by a player and a place: that of the player's identity in the channel
that owns the place. -/
def key? (registry : Registry) (who : PlayerId) (place : ChannelId) :
    Option (ChannelId × Identity) := do
  let player ← registry.players.get? who
  let channel ← registry.channels.get? place
  return (channel.parent.getD place, player.identity)

/-- Stored records are taken over if they are about accounts and about top channels that are
there. -/
def loads (registry : Registry) (record : Record) : Bool :=
  record.identity.isRegistered && (registry.channels.get? record.channel).any (·.isTop)

end Registry

namespace Ledger

/-- The ledger with a change of one entry.  If the entry is missing, it is made first. -/
def change (key : Option (ChannelId × Identity)) (f : Rights → Rights) (ledger : Ledger) :
    Ledger :=
  match key with
  | some (owner, identity) => ledger.set owner identity (f ((ledger owner identity).getD .none))
  | none => ledger

/-- The ledger with a stored record, if it is taken over. -/
def load (registry : Registry) (ledger : Ledger) (record : Record) : Ledger :=
  if registry.loads record then ledger.set record.channel record.identity record.rights
  else ledger

/-- The ledger after an operation on a registry.  All operations that are not listed leave it
alone. -/
def after (registry : Registry) (operation : Operation) (succeeded : Bool) (ledger : Ledger) :
    Ledger :=
  match operation with
  | .privileges who place => ledger.change (registry.key? who place) fun rights => rights
  | .grant who place rights => ledger.change (registry.key? who place) (·.union rights)
  | .revoke who place rights => ledger.change (registry.key? who place) (·.without rights)
  | .loadRecords records => records.foldl (load registry) ledger
  | .removePlayer who => ledger.forget (.unregistered who)
  | .destroyChannel id => ledger.clear id
  | .attach _ child => if succeeded then ledger.clear child else ledger
  | _ => ledger

theorem set_set (ledger : Ledger) (owner : ChannelId) (identity : Identity)
    (rights rights' : Rights) :
    (ledger.set owner identity rights).set owner identity rights' =
      ledger.set owner identity rights' := by
  funext id who
  rw [set, set, set]
  by_cases h : id = owner ∧ who = identity
  · rw [if_pos h, if_pos h]
  · rw [if_neg h, if_neg h, if_neg h]

end Ledger

namespace Registry

variable {registry : Registry}

/-! ## Operations that leave the ledger alone -/

/-- An import leaves the records of every channel as they are, and new channels have none. -/
theorem ledger_imported (base : Registry) (entries : List Wire.Entry) :
    (base.imported entries).ledger = base.ledger := by
  have hrecords (id : ChannelId) : (base.imported entries).recordsOf id = base.recordsOf id := by
    cases hold : base.channels.get? id with
    | some c =>
        rw [recordsOf_of_found hold, recordsOf_of_found (get?_imported_of_found hold entries)]
    | none =>
        rw [recordsOf, recordsOf, hold]
        cases hnew : (base.imported entries).channels.get? id with
        | none => rfl
        | some c =>
            obtain ⟨entry, -, rfl⟩ := settler_of_missing hold hnew
            rfl
  funext id who
  rw [ledger, ledger, hrecords]

/-! ## Operations on the ledger -/

theorem ledger_of_missing {id : ChannelId} (h : registry.channels.get? id = none)
    (who : Identity) : registry.ledger id who = none := by
  rw [ledger, recordsOf, h]
  rfl

theorem ledger_destroyChannel (hforest : Forest registry) (id : ChannelId) :
    (leaves (destroyChannel id) registry).ledger = registry.ledger.clear id := by
  cases hfound : registry.channels.get? id with
  | none =>
      have hrefused : Refused (destroyChannel id) registry := destroyChannel_refused fun h => by
        obtain ⟨c, hc, -⟩ := h
        rw [hfound] at hc
        cases hc
      obtain ⟨fault, hfault⟩ := hrefused
      rw [leaves_of_error hfault]
      funext id' who
      rw [Ledger.clear]
      by_cases heq : id' = id
      · rw [if_pos heq, heq, ledger_of_missing hfound]
      · rw [if_neg heq]
  | some c =>
      obtain ⟨freed, hfreed, -⟩ := get?_free_self hfound
      rw [leaves_of_ok (destroyChannel_ok hfound (hforest.parentFound hfound) hfreed),
        ledger_remove (hforest.free id).distinct, (Quiet.free id).ledger]

theorem ledger_removePlayer (hrecorded : Recorded registry) (who : PlayerId) :
    (leaves (removePlayer who) registry).ledger =
      registry.ledger.forget (.unregistered who) := by
  cases hknown : registry.players.get? who with
  | some player => rw [leaves_of_ok (removePlayer_of_found hknown), ledger_withoutPlayer]
  | none =>
      rw [leaves_of_ok (removePlayer_of_missing hknown)]
      funext id identity
      rw [Ledger.forget]
      by_cases heq : identity = .unregistered who
      · rw [if_pos heq, heq, hrecorded.ledger_of_unknown hknown]
      · rw [if_neg heq]

theorem loads_iff {record : Record} : registry.loads record = true ↔ Loadable registry record := by
  rw [loads, Bool.and_eq_true, Loadable, IsTop]
  cases registry.channels.get? record.channel with
  | none => simp
  | some c => simp [isTop_iff]

theorem ledger_loadRecords {base : Registry} (records : List Record)
    (htop : ∀ id, IsTop registry id ↔ IsTop base id) :
    (leaves (loadRecords records) registry).ledger =
      records.foldl (Ledger.load base) registry.ledger := by
  induction records generalizing registry with
  | nil => rfl
  | cons record records ih =>
      have hloads : base.loads record = true ↔ Loadable registry record := by
        rw [loads_iff, Loadable, Loadable, htop]
      rw [List.foldl_cons, Ledger.load]
      rcases loadRecords_cons record records with ⟨hloadable, heq⟩ | ⟨hnot, heq⟩
      · obtain ⟨c, hfound, -⟩ := hloadable.2
        rw [heq, if_pos (hloads.mpr hloadable), ← ledger_setRights hfound]
        exact ih fun id => Recorded.isTop_setRights.trans (htop id)
      · rw [heq, if_neg fun h => hnot (hloads.mp h), ih htop]

/-- Either a player and a place mean an entry, and then there is an owner, or they mean none, and
then nothing is found. -/
theorem key?_cases (hforest : Forest registry) (who : PlayerId) (place : ChannelId) :
    (∃ p owner, registry.players.get? who = some p ∧ registry.owner place = .ok owner ∧
      registry.channels.get? owner.id = some owner ∧
      registry.key? who place = some (owner.id, p.identity)) ∨
    (registry.key? who place = none ∧
      (registry.players.get? who = none ∨ ∃ fault, registry.owner place = .error fault)) := by
  cases hp : registry.players.get? who with
  | none => exact .inr ⟨by rw [key?, hp]; rfl, .inl rfl⟩
  | some p =>
      cases hc : registry.channels.get? place with
      | none => exact .inr ⟨by rw [key?, hp, hc]; rfl, .inr ⟨_, owner_of_missing hc⟩⟩
      | some c =>
          obtain ⟨owner, howner, hfound, -⟩ := hforest.exists_owner hc
          have hid : owner.id = c.parent.getD place := Slots.id_of_get? hfound
          refine .inl ⟨p, owner, rfl, howner, hid ▸ hfound, ?_⟩
          rw [key?, hp, hc, hid]
          rfl

end Registry

namespace Session

variable {store : Store} {session : Session}

open Registry (Forest Recorded Sound)

/-! ## Operations on one entry -/

theorem ledger_looked {owner : Channel}
    (hfound : session.registry.channels.get? owner.id = some owner) (identity : Identity) :
    (looked owner identity session.registry).ledger =
      session.registry.ledger.set owner.id identity
        ((session.registry.ledger owner.id identity).getD .none) := by
  rw [looked, Registry.ledger_setRights hfound, Registry.ledger_of_found hfound]

theorem ledger_privileges (hforest : Forest session.registry) (who : PlayerId)
    (place : ChannelId) :
    (leaves (privileges store who place) session).registry.ledger =
      session.registry.ledger.change (session.registry.key? who place) fun rights => rights := by
  rcases Registry.key?_cases hforest who place with
    ⟨p, owner, hp, howner, hfound, hkey⟩ | ⟨hkey, hmissing⟩
  · obtain ⟨after, hok, hregistry, -⟩ := privileges_ok store hp howner hfound
    rw [leaves_of_ok hok, hregistry, ledger_looked hfound, hkey]
    rfl
  · obtain ⟨fault, hfault⟩ := privileges_refused store hmissing
    rw [leaves_of_error hfault, hkey]
    rfl

theorem ledger_changeRights (hforest : Forest session.registry) (who : PlayerId)
    (place : ChannelId) (f : Rights → Rights) :
    (leaves (changeRights store who place f) session).registry.ledger =
      session.registry.ledger.change (session.registry.key? who place) f := by
  rcases Registry.key?_cases hforest who place with
    ⟨p, owner, hp, howner, hfound, hkey⟩ | ⟨hkey, hmissing⟩
  · obtain ⟨after, hok, hregistry, -⟩ := changeRights_ok store f hp howner hfound
    have hlooked := ledger_looked hfound p.identity
    have hfound' : (looked owner p.identity session.registry).channels.get? owner.id =
        some (owner.setRights p.identity ((owner.rights? p.identity).getD .none)) :=
      Registry.get?_setRights hfound
    rw [leaves_of_ok hok, hregistry, Registry.ledger_setRights hfound', hlooked, Ledger.set_set,
      hkey, Ledger.change, Registry.ledger_of_found hfound]
  · obtain ⟨fault, hfault⟩ := changeRights_refused store f hmissing
    rw [leaves_of_error hfault, hkey]
    rfl

/-! ## All operations -/

/-- A channel loses its entries when it is put below a parent, and only then. -/
theorem ledger_step_attach (parent child : ChannelId) :
    (session.step store (.attach parent child)).2.registry.ledger =
      session.registry.ledger.after session.registry (.attach parent child)
        (session.step store (.attach parent child)).1.isOk := by
  have hattach := @Registry.attach_allOrNothing session.registry parent child
  rcases hattach.cases with ⟨⟨p, c, hattachable⟩, hok⟩ | ⟨-, fault, herror⟩
  · rw [step_of_ok hok rfl]
    exact Registry.ledger_graft hattachable.distinct
  · rw [step_of_error herror rfl]
    rfl

/-- An import leaves the ledger alone. -/
theorem ledger_step_import (hsound : Sound session.registry) {operation : Operation}
    (h : operation.ways = Registry.importing) :
    (session.step store operation).2.registry.ledger = session.registry.ledger := by
  obtain ⟨entries, hentries⟩ := registry_step_import store hsound h
  rw [hentries, Registry.ledger_imported]

/-- The cases of `ledger_step`, one for each operation. -/
theorem ledger_step_of_sound (hsound : Sound session.registry)
    (hrecorded : Recorded session.registry) (operation : Operation) :
    (session.step store operation).2.registry.ledger =
      session.registry.ledger.after session.registry operation
        (session.step store operation).1.isOk := by
  have hforest := hsound.forest
  cases operation with
  | attach parent child => exact ledger_step_attach parent child
  | privileges who place =>
      rw [step_snd, Operation.perform, leaves_bind_pure]
      exact ledger_privileges hforest who place
  | grant who place rights =>
      rw [step_snd, Operation.perform, leaves_bind_pure]
      exact ledger_changeRights hforest who place _
  | revoke who place rights =>
      rw [step_snd, Operation.perform, leaves_bind_pure]
      exact ledger_changeRights hforest who place _
  | loadRecords records =>
      rw [step_snd, Operation.perform, registry_leaves_onRegistry_bind]
      exact Registry.ledger_loadRecords records fun _ => Iff.rfl
  | removePlayer who =>
      rw [step_snd, Operation.perform, registry_leaves_onRegistry_bind]
      exact Registry.ledger_removePlayer hrecorded who
  | destroyChannel id =>
      rw [step_snd, Operation.perform, registry_leaves_onRegistry_bind]
      exact Registry.ledger_destroyChannel hforest id
  | importBatch entries => exact ledger_step_import hsound rfl
  | importStream stream => exact ledger_step_import hsound rfl
  | _ => exact Registry.ledger_step_of_quiet (by simp [Operation.ways, Registry.quietWays])

/-- In a reachable session an operation does to the ledger what `Ledger.after` says. -/
theorem ledger_step {limits : Limits} (h : Reachable store limits session) (operation : Operation) :
    (session.step store operation).2.registry.ledger =
      session.registry.ledger.after session.registry operation
        (session.step store operation).1.isOk :=
  ledger_step_of_sound (Registry.sound_of_reachable h) (Registry.recorded_of_reachable h) operation

/-- What operations make of a ledger, one after the other, if they begin with a session. -/
def followed (store : Store) : List Operation → Session → Ledger → Ledger
  | [], _, ledger => ledger
  | operation :: operations, session, ledger =>
      followed store operations (session.step store operation).2
        (ledger.after session.registry operation (session.step store operation).1.isOk)

/-- The ledger after a run is what the run makes of the empty ledger. -/
theorem ledger_run (store : Store) (limits : Limits) (operations : List Operation) :
    ((start (.empty limits)).run store operations).registry.ledger =
      followed store operations (start (.empty limits)) fun _ _ => none := by
  have hfrom {session : Session} (h : Reachable store limits session) :
      (session.run store operations).registry.ledger =
        followed store operations session session.registry.ledger := by
    induction operations generalizing session with
    | nil => rfl
    | cons operation operations ih =>
        rw [followed, ← ledger_step h]
        exact ih (h.step operation)
  exact hfrom .start

/-! ## What is answered -/

/-- The record that is answered says what the ledger says. -/
theorem recordOf_eq (hrecorded : Recorded session.registry) {owner : Channel}
    (hfound : session.registry.channels.get? owner.id = some owner) (identity : Identity) :
    recordOf owner identity =
      { channel := owner.id
        identity
        rights := (session.registry.ledger owner.id identity).getD .none } := by
  have hidentity := identity_recordOf owner identity
  have hrights := rights_recordOf owner identity
  have hchannel : (recordOf owner identity).channel = owner.id := by
    rw [recordOf]
    cases hrecord : owner.record? identity with
    | none => rfl
    | some record =>
        have hmem : record ∈ session.registry.recordsOf owner.id := by
          rw [Registry.recordsOf_of_found hfound]
          exact List.mem_of_find?_eq_some hrecord
        exact hrecorded.own owner.id record hmem
  rw [Registry.ledger_of_found hfound, ← hrights]
  cases hrecord : recordOf owner identity with
  | mk channel identity' rights =>
      rw [hrecord] at hidentity hchannel
      rw [← hidentity, ← hchannel]

/-- The operations on privileges answer what the ledger says, and what it says from now on. -/
theorem answers_of_key? (hforest : Forest session.registry) (hrecorded : Recorded session.registry)
    {who : PlayerId} {place owner : ChannelId} {identity : Identity}
    (hkey : session.registry.key? who place = some (owner, identity)) :
    (session.step store (.privileges who place)).1 =
        .ok (.record
          { channel := owner
            identity
            rights := (session.registry.ledger owner identity).getD .none }) ∧
      ∀ rights,
        (session.step store (.grant who place rights)).1 =
          .ok (.rights (((session.registry.ledger owner identity).getD .none).union rights)) ∧
        (session.step store (.revoke who place rights)).1 =
          .ok (.rights (((session.registry.ledger owner identity).getD .none).without rights)) := by
  rcases Registry.key?_cases hforest who place with
    ⟨p, c, hp, howner, hfound, hkey'⟩ | ⟨hkey', -⟩
  · rw [hkey] at hkey'
    cases hkey'
    have hledger := Registry.ledger_of_found hfound p.identity
    have hchange (f : Rights → Rights) : ∃ after, changeRights store who place f session =
        .ok (f ((session.registry.ledger c.id p.identity).getD .none)) after := by
      obtain ⟨after, hok, -⟩ := changeRights_ok store f hp howner hfound
      exact ⟨after, by rw [hok, hledger]⟩
    refine ⟨?_, fun rights => ⟨?_, ?_⟩⟩
    · obtain ⟨after, hok, -⟩ := privileges_ok store hp howner hfound
      simp only [step, Operation.perform, bind_apply, hok, pure_apply, recordOf_eq hrecorded hfound]
    · obtain ⟨after, hok⟩ := hchange (·.union rights)
      simp only [step, Operation.perform, grant, bind_apply, hok, pure_apply]
    · obtain ⟨after, hok⟩ := hchange (·.without rights)
      simp only [step, Operation.perform, revoke, bind_apply, hok, pure_apply]
  · rw [hkey] at hkey'
    cases hkey'

/-! ## Asking in different ways -/

/-- Two ways to ask for privileges come to the same: the same answers and the same sessions. -/
def ActAlike (store : Store) (session : Session) (who : PlayerId) (place : ChannelId)
    (who' : PlayerId) (place' : ChannelId) : Prop :=
  session.step store (.privileges who place) = session.step store (.privileges who' place') ∧
    ∀ rights,
      session.step store (.grant who place rights) =
        session.step store (.grant who' place' rights) ∧
      session.step store (.revoke who place rights) =
        session.step store (.revoke who' place' rights)

theorem actAlike_of_locate {who who' : PlayerId} {place place' : ChannelId}
    (h : locate store who place session = locate store who' place' session) :
    ActAlike store session who place who' place' := by
  have hprivileges : privileges store who place session =
      privileges store who' place' session := by
    simp only [privileges, bind_apply, h]
  have hchange (f : Rights → Rights) : changeRights store who place f session =
      changeRights store who' place' f session := by
    simp only [changeRights, bind_apply, h]
  refine ⟨?_, fun rights => ⟨?_, ?_⟩⟩
  · simp only [step, Operation.perform, bind_apply, hprivileges]
  · simp only [step, Operation.perform, grant, bind_apply, hchange]
  · simp only [step, Operation.perform, revoke, bind_apply, hchange]

/-- In a subchannel one asks for the same privileges as in its parent. -/
theorem actAlike_of_parent (hforest : Forest session.registry) {place parent : ChannelId}
    {c : Channel} (hc : session.registry.channels.get? place = some c)
    (hparent : c.parent = some parent) (who : PlayerId) :
    ActAlike store session who place who parent := by
  obtain ⟨p, hp⟩ := hforest.parentFound hc parent hparent
  have howner : session.registry.owner place = session.registry.owner parent := by
    rw [Registry.owner_of_below hc hparent hp,
      Registry.owner_of_top hp (hforest.parent_top hc hparent hp)]
  refine actAlike_of_locate ?_
  cases hplayer : session.registry.player who with
  | ok player => simp only [locate, bind_apply, ask_apply, hplayer, howner]
  | error fault => simp only [locate, bind_apply, ask_apply, hplayer]

/-- Players of one account ask for the same privileges. -/
theorem actAlike_of_identity {who who' : PlayerId} {p p' : Player}
    (hp : session.registry.players.get? who = some p)
    (hp' : session.registry.players.get? who' = some p') (hidentity : p.identity = p'.identity)
    (place : ChannelId) : ActAlike store session who place who' place :=
  actAlike_of_locate (by
    simp only [locate, bind_apply, ask_apply, Registry.player_eq_ok.mpr hp,
      Registry.player_eq_ok.mpr hp', hidentity])

/-- In a reachable session only top channels have records, each names its channel, and no identity
has two; so the records are a finite table of rights by top channel and identity.  Every operation
does to it what `Ledger.after` says, and the operations on privileges answer what it says of the
owner of the place and of the identity of the player.  Nothing else of the place and of the player
counts. -/
theorem ledger_refinement {limits : Limits} (h : Reachable store limits session) :
    (∀ c ∈ session.registry.channels.entries,
      (c.records ≠ [] → c.parent = none) ∧ (∀ record ∈ c.records, record.channel = c.id) ∧
        (c.records.map (·.identity)).Nodup ∧
        ∀ record, record ∈ c.records ↔ record.channel = c.id ∧
          session.registry.ledger c.id record.identity = some record.rights) ∧
    (∀ id who, (session.registry.ledger id who).isSome → Registry.IsTop session.registry id) ∧
    {key : ChannelId × Identity | (session.registry.ledger key.1 key.2).isSome}.Finite ∧
    (∀ operation, (session.step store operation).2.registry.ledger =
      session.registry.ledger.after session.registry operation
        (session.step store operation).1.isOk) ∧
    (∀ who place p c, session.registry.players.get? who = some p →
      session.registry.channels.get? place = some c →
        let owner := c.parent.getD place
        let old := (session.registry.ledger owner p.identity).getD .none
        session.registry.key? who place = some (owner, p.identity) ∧
        (session.step store (.privileges who place)).1 =
          .ok (.record { channel := owner, identity := p.identity, rights := old }) ∧
        ∀ rights,
          (session.step store (.grant who place rights)).1 = .ok (.rights (old.union rights)) ∧
          (session.step store (.revoke who place rights)).1 =
            .ok (.rights (old.without rights))) ∧
    (∀ place parent c, session.registry.channels.get? place = some c → c.parent = some parent →
      ∀ who, ActAlike store session who place who parent) ∧
    ∀ who who' p p', session.registry.players.get? who = some p →
      session.registry.players.get? who' = some p' → p.identity = p'.identity →
        ∀ place, ActAlike store session who place who' place := by
  have hforest := Registry.forest_of_reachable h
  have hrecorded := Registry.recorded_of_reachable h
  refine ⟨?_, ?_, Registry.finite_ledger _, ledger_step h, ?_, ?_, ?_⟩
  · exact fun c hc => hrecorded.of_mem hforest.distinct hc
  · intro id who hsome
    apply hrecorded.top id
    intro hnil
    rw [Registry.ledger, hnil] at hsome
    cases hsome
  · intro who place p c hp hc
    have hkey : session.registry.key? who place = some (c.parent.getD place, p.identity) := by
      rw [Registry.key?, hp, hc]
      rfl
    exact ⟨hkey, answers_of_key? hforest hrecorded hkey⟩
  · intro place parent c hc hparent who
    exact actAlike_of_parent hforest hc hparent who
  · intro who who' p p' hp hp' hidentity place
    exact actAlike_of_identity hp hp' hidentity place

/-- Two players have one account and there is a subchannel.  What the first is granted in the
subchannel is an entry of the account in the parent, and the second could have asked as well. -/
theorem ledger_refinement_of_account :
    let upper : Metadata := { Metadata.preset with flags := .subchannels }
    let session := (start (.empty {})).run .none
      [.importBatch [⟨⟨1⟩, none, upper⟩, ⟨⟨2⟩, some ⟨1⟩, .preset⟩],
        .addPlayer (.registered "a" "m" ⟨7⟩) 0, .addPlayer (.registered "b" "m" ⟨7⟩) 0]
    let granted := session.step .none (.grant ⟨1⟩ ⟨2⟩ .voice)
    granted.1 = .ok (.rights .voice) ∧
      granted.2.registry.ledger ⟨1⟩ (.registered ⟨7⟩) = some .voice ∧
      ActAlike .none session ⟨1⟩ ⟨2⟩ ⟨1⟩ ⟨1⟩ ∧ ActAlike .none session ⟨1⟩ ⟨2⟩ ⟨2⟩ ⟨2⟩ := by
  intro upper session granted
  obtain ⟨-, -, -, hstep, hanswer, hparent, hidentity⟩ :=
    @ledger_refinement .none session {} (.step _ (.step _ (.step _ .start)))
  have hfirst : session.registry.players.get? ⟨1⟩ =
      some ⟨⟨1⟩, 0, "a", "m", some ⟨7⟩, .registered, none⟩ := by
    decide +kernel
  have hsecond : session.registry.players.get? ⟨2⟩ =
      some ⟨⟨2⟩, 0, "b", "m", some ⟨7⟩, .registered, none⟩ := by
    decide +kernel
  have hplace : session.registry.channels.get? ⟨2⟩ =
      some ⟨⟨2⟩, .preset, .empty, some ⟨1⟩, [], [], []⟩ := by
    decide +kernel
  have hmissing : session.registry.ledger ⟨1⟩ (.registered ⟨7⟩) = none := by
    decide +kernel
  obtain ⟨hkey, -, hanswers⟩ := hanswer ⟨1⟩ ⟨2⟩ _ _ hfirst hplace
  have hgranted := (hanswers .voice).1
  have hentry := congrFun (congrFun (hstep (.grant ⟨1⟩ ⟨2⟩ .voice)) ⟨1⟩) (.registered ⟨7⟩)
  rw [Ledger.after, hkey] at hentry
  have hvoice : ((session.registry.ledger ⟨1⟩ (.registered ⟨7⟩)).getD .none).union .voice =
      .voice := by
    rw [hmissing]
    rfl
  refine ⟨hgranted.trans ?_, hentry.trans (congrArg some hvoice), ?_, ?_⟩
  · exact congrArg (fun rights => Except.ok (Answer.rights rights)) hvoice
  · exact hparent ⟨2⟩ ⟨1⟩ _ hplace rfl ⟨1⟩
  · exact hidentity ⟨1⟩ ⟨2⟩ _ _ hfirst hsecond rfl ⟨2⟩

end Session

end ChannelServer
