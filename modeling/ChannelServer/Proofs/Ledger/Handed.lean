import ChannelServer.Proofs.Ledger.Refinement

/-!
# What is handed to the store

Two questions about the store of a session.  The first is what it can do, and the answer is nothing:
sessions with different stores give the same answers, have the same registries and hand over the
same records.  They may only differ in what was refused, and nobody looks at that.

The second is what the store gets to know.  `handedOver` says for each operation which records are
handed over, in terms of the ledger alone: an entry that is made, then the entry that is changed, if
the entry is to last.  If a store writes these records to a table, each in the place of an earlier
one, then the table has the lasting entries of the ledger.  It may have more, because nothing is
said when an entry is dropped; but an entry that comes back is written anew.

## Main results

* `run_alike`: what a store answers is of no importance.
* `handed_step`: an operation hands over what `handedOver` says.
* `lasting_run`: the records handed over so far say of every lasting entry what the ledger says.
* `handed_of_run`: all of this together.
-/

namespace ChannelServer

namespace Ledger

variable {ledger ledger' : Ledger}

/-- What the first ledger says, the second one says as well. -/
def Within (ledger ledger' : Ledger) : Prop :=
  ∀ id who rights, ledger id who = some rights → ledger' id who = some rights

theorem Within.refl (ledger : Ledger) : ledger.Within ledger := fun _ _ _ h => h

theorem Within.trans {ledger'' : Ledger} (h : ledger.Within ledger')
    (h' : ledger'.Within ledger'') : ledger.Within ledger'' :=
  fun id who rights hentry => h' id who rights (h id who rights hentry)

theorem clear_within (owner : ChannelId) : (ledger.clear owner).Within ledger := by
  intro id who rights h
  rw [clear] at h
  split at h
  · cases h
  · exact h

theorem forget_within (identity : Identity) : (ledger.forget identity).Within ledger := by
  intro id who rights h
  rw [forget] at h
  split at h
  · cases h
  · exact h

theorem set_within (owner : ChannelId) (identity : Identity) (rights : Rights)
    (h : ledger.Within ledger') :
    (ledger.set owner identity rights).Within (ledger'.set owner identity rights) := by
  intro id who rights' hentry
  rw [set] at hentry ⊢
  split
  · rwa [if_pos ‹_›] at hentry
  · rw [if_neg ‹_›] at hentry
    exact h id who rights' hentry

/-! ## Writing records -/

/-- The ledger after records are written to it, each in the place of what it says so far. -/
def put (records : List Record) (ledger : Ledger) : Ledger :=
  records.foldl (fun ledger record => ledger.set record.channel record.identity record.rights)
    ledger

theorem put_append (records records' : List Record) (ledger : Ledger) :
    ledger.put (records ++ records') = (ledger.put records).put records' :=
  List.foldl_append

theorem put_concat (records : List Record) (record : Record) (ledger : Ledger) :
    ledger.put (records ++ [record]) =
      (ledger.put records).set record.channel record.identity record.rights :=
  put_append records [record] ledger

theorem put_within (records : List Record) (h : ledger.Within ledger') :
    (ledger.put records).Within (ledger'.put records) := by
  induction records generalizing ledger ledger' with
  | nil => exact h
  | cons record records ih => exact ih (set_within _ _ _ h)

/-- Of records that are all about one entry, the last one counts. -/
theorem put_map (ledger : Ledger) (owner : ChannelId) (identity : Identity)
    (written : List Rights) (id : ChannelId) (who : Identity) :
    ledger.put (written.map fun rights => { channel := owner, identity, rights }) id who =
      if id = owner ∧ who = identity then written.getLast?.or (ledger id who)
      else ledger id who := by
  induction written using List.reverseRecOn with
  | nil => simp [put]
  | append_singleton written rights ih =>
      rw [List.map_append, List.map_singleton, put_concat, List.getLast?_concat, set, ih]
      by_cases h : id = owner ∧ who = identity
      · rw [if_pos h, if_pos h, Option.some_or]
      · rw [if_neg h, if_neg h, if_neg h]

/-- The last record about an entry is what the entry is from then on. -/
theorem put_of_last {record : Record} (earlier : List Record) {later : List Record}
    (ledger : Ledger) (hlater : ∀ other ∈ later,
      ¬ (other.channel = record.channel ∧ other.identity = record.identity)) :
    ledger.put (earlier ++ record :: later) record.channel record.identity =
      some record.rights := by
  induction later using List.reverseRecOn with
  | nil => rw [put_concat, set, if_pos ⟨rfl, rfl⟩]
  | append_singleton later other ih =>
      have hother := hlater other (List.mem_append_right _ List.mem_cons_self)
      rw [← List.cons_append, ← List.append_assoc, put_concat, set,
        if_neg fun h => hother ⟨h.1.symm, h.2.symm⟩]
      exact ih fun other hmem => hlater other (List.mem_append_left _ hmem)

/-- What is written to the empty ledger is in the last record about the entry. -/
theorem exists_last_of_put {records : List Record} {owner : ChannelId} {identity : Identity}
    {rights : Rights} (h : put records (fun _ _ => none) owner identity = some rights) :
    ∃ earlier later, records = earlier ++ { channel := owner, identity, rights } :: later ∧
      ∀ record ∈ later, ¬ (record.channel = owner ∧ record.identity = identity) := by
  induction records using List.reverseRecOn with
  | nil => cases h
  | append_singleton records record ih =>
      rw [put_concat, set] at h
      split at h
      · rename_i heq
        obtain ⟨rfl, rfl⟩ := heq
        cases h
        exact ⟨records, [], rfl, fun _ hnone => absurd hnone List.not_mem_nil⟩
      · rename_i hne
        obtain ⟨earlier, later, hrecords, hlater⟩ := ih h
        refine ⟨earlier, later ++ [record], by rw [hrecords]; simp, fun other hother => ?_⟩
        rcases List.mem_append.mp hother with hother | hother
        · exact hlater other hother
        · rw [List.mem_singleton.mp hother]
          exact fun hsame => hne ⟨hsame.1.symm, hsame.2.symm⟩

end Ledger

namespace Session

/-! ## The store does not matter -/

/-- Two sessions that may only differ in what was refused. -/
structure Alike (session session' : Session) : Prop where
  registry : session.registry = session'.registry
  handed : session.handed = session'.handed

/-- Two outcomes that may only differ in what was refused. -/
inductive AlikeResult {α : Type} :
    EStateM.Result Fault Session α → EStateM.Result Fault Session α → Prop where
  | ok {session session' : Session} (answer : α) (h : Alike session session') :
      AlikeResult (.ok answer session) (.ok answer session')
  | error {session session' : Session} (fault : Fault) (h : Alike session session') :
      AlikeResult (.error fault session) (.error fault session')

/-- Two actions that come to the same in sessions that are alike. -/
def Agree {α : Type} (action action' : Action α) : Prop :=
  ∀ session session', Alike session session' → AlikeResult (action session) (action' session')

section Agree

variable {α β : Type}

theorem agree_pure (a : α) : Agree (pure a) (pure a) := fun _ _ h => .ok a h

theorem agree_bind {action action' : Action α} {f f' : α → Action β} (h : Agree action action')
    (hrest : ∀ a, Agree (f a) (f' a)) : Agree (action >>= f) (action' >>= f') := by
  intro session session' halike
  have hfirst := h session session' halike
  rw [bind_apply, bind_apply]
  generalize action session = result, action' session' = result' at hfirst
  cases hfirst with
  | ok a h => exact hrest a _ _ h
  | error fault h => exact .error fault h

theorem agree_onRegistry (action : Registry.Action α) :
    Agree (onRegistry action) (onRegistry action) := by
  intro session session' h
  rw [onRegistry_apply, onRegistry_apply, ← h.registry]
  cases action session.registry with
  | ok answer registry => exact .ok answer ⟨rfl, h.handed⟩
  | error fault registry => exact .error fault ⟨rfl, h.handed⟩

variable (store store' : Store)

/-- The same record is handed to both stores, whatever they answer. -/
theorem agree_keep (owner : Channel) (record : Record) :
    Agree (keep store owner record) (keep store' owner record) := by
  intro session session' h
  obtain ⟨kept, hkeep, hregistry, hhanded⟩ := keep_apply store owner record session
  obtain ⟨kept', hkeep', hregistry', hhanded'⟩ := keep_apply store' owner record session'
  rw [hkeep, hkeep']
  exact .ok () ⟨by rw [hregistry, hregistry', h.registry], by rw [hhanded, hhanded', h.handed]⟩

theorem agree_locate (who : PlayerId) (place : ChannelId) :
    Agree (locate store who place) (locate store' who place) := by
  refine agree_bind (agree_onRegistry _) fun player => ?_
  refine agree_bind (agree_onRegistry _) fun owner => ?_
  cases owner.record? player.identity with
  | some record => exact agree_pure _
  | none =>
      refine agree_bind (agree_keep store store' owner _) fun _ => ?_
      exact agree_bind (agree_onRegistry _) fun _ => agree_pure _

theorem agree_changeRights (who : PlayerId) (place : ChannelId) (change : Rights → Rights) :
    Agree (changeRights store who place change) (changeRights store' who place change) := by
  refine agree_bind (agree_locate store store' who place) fun found => ?_
  refine agree_bind (agree_onRegistry _) fun _ => ?_
  exact agree_bind (agree_keep store store' found.1 _) fun _ => agree_pure _

theorem agree_perform (operation : Operation) :
    Agree (operation.perform store) (operation.perform store') := by
  cases operation with
  | privileges who place =>
      refine agree_bind ?_ fun _ => agree_pure _
      exact agree_bind (agree_locate store store' who place) fun _ => agree_pure _
  | grant who place rights =>
      exact agree_bind (agree_changeRights store store' who place _) fun _ => agree_pure _
  | revoke who place rights =>
      exact agree_bind (agree_changeRights store store' who place _) fun _ => agree_pure _
  | _ => exact agree_bind (agree_onRegistry _) fun _ => agree_pure _

end Agree

/-- The answers to some operations, one after the other. -/
def answers (store : Store) : List Operation → Session → List (Except Fault Answer)
  | [], _ => []
  | operation :: operations, session =>
      (session.step store operation).1 :: answers store operations (session.step store operation).2

section Alike

variable {session session' : Session} (store store' : Store)

theorem step_alike (operation : Operation) (h : Alike session session') :
    (session.step store operation).1 = (session'.step store' operation).1 ∧
      Alike (session.step store operation).2 (session'.step store' operation).2 := by
  have hagree := agree_perform store store' operation session session' h
  unfold step
  generalize operation.perform store session = result,
    operation.perform store' session' = result' at hagree
  cases hagree with
  | ok answer h => exact ⟨rfl, h⟩
  | error fault h => exact ⟨rfl, h⟩

/-- Two runs of the same operations with different stores cannot be told apart. -/
theorem run_alike (operations : List Operation) (h : Alike session session') :
    session.answers store operations = session'.answers store' operations ∧
      Alike (session.run store operations) (session'.run store' operations) := by
  induction operations generalizing session session' with
  | nil => exact ⟨rfl, h⟩
  | cons operation operations ih =>
      obtain ⟨hanswer, hafter⟩ := step_alike store store' operation h
      obtain ⟨hanswers, hrun⟩ := ih hafter
      refine ⟨?_, hrun⟩
      rw [answers, answers, hanswer, hanswers]

end Alike

end Session

/-! ## What is handed over -/

namespace Registry

variable {registry registry' : Registry}

/-- An entry is to last if it is about an account and if its channel is registered. -/
def lasts (registry : Registry) (owner : ChannelId) (identity : Identity) : Bool :=
  identity.isRegistered && (registry.channels.get? owner).any (·.storesPrivileges)

/-- The records that are handed over when something is written to an entry.  Nothing is if there is
no such entry, or if it is not to last. -/
def due (registry : Registry) (key : Option (ChannelId × Identity))
    (written : Option Rights → List Rights) : List Record :=
  match key with
  | some (owner, identity) =>
    if registry.lasts owner identity then
      (written (registry.ledger owner identity)).map fun rights =>
        { channel := owner, identity, rights }
    else []
  | none => []

/-- What is written to an entry when somebody looks for it.  If it is missing, it is made empty. -/
def looking : Option Rights → List Rights
  | some _ => []
  | none => [.none]

/-- What is written to an entry when it is changed.  Before that, somebody looks for it. -/
def changing (f : Rights → Rights) (old : Option Rights) : List Rights :=
  looking old ++ [f (old.getD .none)]

/-- The records that an operation on a registry hands over, in this order.  Operations that are not
listed hand over nothing. -/
def handedOver (registry : Registry) : Operation → List Record
  | .privileges who place => registry.due (registry.key? who place) looking
  | .grant who place rights => registry.due (registry.key? who place) (changing (·.union rights))
  | .revoke who place rights =>
      registry.due (registry.key? who place) (changing (·.without rights))
  | _ => []

theorem lasts_of_found {owner : Channel} (hfound : registry.channels.get? owner.id = some owner)
    (identity : Identity) :
    registry.lasts owner.id identity = (owner.storesPrivileges && identity.isRegistered) := by
  rw [lasts, hfound, Option.any_some, Bool.and_comm]

/-- What is made when somebody looks for an entry. -/
theorem made_eq {owner : Channel} (hfound : registry.channels.get? owner.id = some owner)
    (identity : Identity) :
    Session.made owner identity = registry.due (some (owner.id, identity)) looking := by
  rw [due, ledger_of_found hfound, lasts_of_found hfound, Session.made, Channel.rights?]
  cases owner.record? identity with
  | some record => simp [looking]
  | none => rfl

theorem due_changing (owner : ChannelId) (identity : Identity) (f : Rights → Rights) :
    registry.due (some (owner, identity)) (changing f) =
      registry.due (some (owner, identity)) looking ++
        if registry.lasts owner identity then
          [{ channel := owner, identity
             rights := f ((registry.ledger owner identity).getD .none) }]
        else [] := by
  rw [due, due]
  split
  · rw [changing, List.map_append]
    rfl
  · rfl

/-- Whatever is handed over is about an account and about a top channel that is registered. -/
theorem worth_handedOver (hforest : Forest registry) {operation : Operation} {record : Record}
    (h : record ∈ registry.handedOver operation) :
    record.identity.isRegistered = true ∧ ∃ c ∈ registry.channels.entries,
      c.id = record.channel ∧ c.parent = none ∧ c.info.flags.has .unregistered = false := by
  have hdue {who : PlayerId} {place : ChannelId} {written : Option Rights → List Rights}
      (h : record ∈ registry.due (registry.key? who place) written) :
      record.identity.isRegistered = true ∧ ∃ c ∈ registry.channels.entries,
        c.id = record.channel ∧ c.parent = none ∧ c.info.flags.has .unregistered = false := by
    rcases key?_cases hforest who place with ⟨p, owner, -, howner, hfound, hkey⟩ | ⟨hkey, -⟩
    · rw [hkey, due] at h
      split at h
      · rename_i hlasts
        obtain ⟨rights, -, rfl⟩ := List.mem_map.mp h
        rw [lasts_of_found hfound, Bool.and_eq_true, Channel.storesPrivileges,
          Bool.not_eq_true'] at hlasts
        exact ⟨hlasts.2, owner, Slots.mem_of_get? hfound, rfl, hforest.top_of_owner howner,
          hlasts.1⟩
      · cases h
    · rw [hkey] at h
      cases h
  cases operation with
  | privileges who place => exact hdue h
  | grant who place rights => exact hdue h
  | revoke who place rights => exact hdue h
  | _ => cases h

end Registry

namespace Session

variable {store : Store} {session : Session}

open Registry (Forest Recorded Sound)

/-- What is handed over of the record of an identity once it has other rights. -/
theorem worth_eq (hrecorded : Recorded session.registry) {owner : Channel}
    (hfound : session.registry.channels.get? owner.id = some owner) (identity : Identity)
    (rights : Rights) :
    worth owner ((recordOf owner identity).withRights rights) =
      if session.registry.lasts owner.id identity then [{ channel := owner.id, identity, rights }]
      else [] := by
  rw [recordOf_eq hrecorded hfound, Registry.lasts_of_found hfound]
  rfl

theorem handed_privileges (hforest : Forest session.registry) (who : PlayerId)
    (place : ChannelId) :
    (leaves (privileges store who place) session).handed = session.handed ++
      session.registry.due (session.registry.key? who place) Registry.looking := by
  rcases Registry.key?_cases hforest who place with
    ⟨p, owner, hp, howner, hfound, hkey⟩ | ⟨hkey, hmissing⟩
  · obtain ⟨after, hok, -, hhanded⟩ := privileges_ok store hp howner hfound
    rw [leaves_of_ok hok, hhanded, hkey, Registry.made_eq hfound]
  · obtain ⟨fault, hfault⟩ := privileges_refused store hmissing
    rw [leaves_of_error hfault, hkey]
    exact (List.append_nil _).symm

theorem handed_changeRights (hforest : Forest session.registry)
    (hrecorded : Recorded session.registry) (who : PlayerId) (place : ChannelId)
    (f : Rights → Rights) :
    (leaves (changeRights store who place f) session).handed = session.handed ++
      session.registry.due (session.registry.key? who place) (Registry.changing f) := by
  rcases Registry.key?_cases hforest who place with
    ⟨p, owner, hp, howner, hfound, hkey⟩ | ⟨hkey, hmissing⟩
  · obtain ⟨after, hok, -, hhanded⟩ := changeRights_ok store f hp howner hfound
    rw [leaves_of_ok hok, hhanded, hkey, Registry.due_changing, Registry.made_eq hfound,
      worth_eq hrecorded hfound, Registry.ledger_of_found hfound, List.append_assoc]
  · obtain ⟨fault, hfault⟩ := changeRights_refused store f hmissing
    rw [leaves_of_error hfault, hkey]
    exact (List.append_nil _).symm

/-- What happens in the registry only is not handed over. -/
theorem handed_leaves_onRegistry_bind {α β : Type} (action : Registry.Action α) (answer : α → β) :
    (leaves (onRegistry action >>= fun a => pure (answer a)) session).handed =
      session.handed := by
  rw [leaves_bind_pure, leaves, onRegistry_apply]
  cases action session.registry <;> rfl

/-- In a reachable session an operation hands over what `handedOver` says. -/
theorem handed_step {limits : Limits} (h : Reachable store limits session) (operation : Operation) :
    (session.step store operation).2.handed =
      session.handed ++ session.registry.handedOver operation := by
  have hforest := Registry.forest_of_reachable h
  have hrecorded := Registry.recorded_of_reachable h
  rw [step_snd]
  cases operation with
  | privileges who place =>
      rw [Operation.perform, leaves_bind_pure]
      exact handed_privileges hforest who place
  | grant who place rights =>
      rw [Operation.perform, leaves_bind_pure]
      exact handed_changeRights hforest hrecorded who place _
  | revoke who place rights =>
      rw [Operation.perform, leaves_bind_pure]
      exact handed_changeRights hforest hrecorded who place _
  | _ => exact (handed_leaves_onRegistry_bind _ _).trans (List.append_nil _).symm

end Session

/-! ## Lasting entries -/

namespace Channel

/-- Whether a channel is registered never changes. -/
theorem storesPrivileges_of_turn {way : Registry.Way} {c c' : Channel} (h : Turn way c c') :
    c'.storesPrivileges = c.storesPrivileges := by
  have hsame (hflag : c'.info.flags.has .unregistered = c.info.flags.has .unregistered) :
      c'.storesPrivileges = c.storesPrivileges := by
    rw [storesPrivileges, storesPrivileges, hflag]
  cases h with
  | release _ _ _ => rfl
  | adopt _ _ => rfl
  | rise _ _ => rfl
  | sink _ _ _ => rfl
  | crown _ _ => exact hsame (Flags.has_union_of_disjoint _ (by decide))
  | resign _ => exact hsame (Flags.has_without_of_disjoint _ (by decide))
  | edit edited => exact hsame (edited.has_eq (by decide))
  | setRights _ _ _ =>
      rw [setRights_eq]
      rfl
  | forget _ _ => rfl
  | receive _ _ _ =>
      rw [receive_eq]
      rfl
  | dropMember _ _ => rfl

theorem storesPrivileges_of_turns {way : Registry.Way} {c c' : Channel} (h : Turns way c c') :
    c'.storesPrivileges = c.storesPrivileges :=
  h.same fun _ _ => storesPrivileges_of_turn

end Channel

namespace Registry

variable {registry registry' : Registry}

/-- The entries that are to last. -/
def lasting (registry : Registry) : Ledger := fun id who =>
  if registry.lasts id who then registry.ledger id who else none

theorem lasting_eq_some {id : ChannelId} {who : Identity} {rights : Rights} :
    registry.lasting id who = some rights ↔
      registry.lasts id who = true ∧ registry.ledger id who = some rights := by
  rw [lasting]
  split
  · exact ⟨fun h => ⟨‹_›, h⟩, fun h => h.2⟩
  · exact ⟨by rintro ⟨⟩, fun h => absurd h.1 ‹_›⟩

/-- Only when rights are set, the ledger gets new entries. -/
theorem ledger_within_of_change (hforest : Forest registry) {way : Way}
    (hchange : Change registry way registry') (hway : way ≠ .setRights) :
    registry'.ledger.Within registry.ledger := by
  have hquiet (h : way ∈ quietWays) : registry'.ledger.Within registry.ledger := by
    rw [(Quiet.of_change h hchange).ledger]
    exact .refl _
  cases hchange with
  | graft hattach =>
      rw [ledger_graft hattach.distinct]
      exact Ledger.clear_within _
  | remove found top =>
      rw [ledger_remove hforest.distinct]
      exact Ledger.clear_within _
  | depart known =>
      rw [ledger_withoutPlayer]
      exact Ledger.forget_within _
  | setRights _ _ _ => exact absurd rfl hway
  | _ => exact hquiet (by decide)

theorem exists_of_ledger {id : ChannelId} {who : Identity} {rights : Rights}
    (h : registry.ledger id who = some rights) : ∃ c, registry.channels.get? id = some c := by
  cases hc : registry.channels.get? id with
  | some c => exact ⟨c, rfl⟩
  | none =>
      rw [ledger_of_missing hc] at h
      cases h

/-- Only when rights are set, there are new entries that last. -/
theorem lasting_within_of_change (hforest : Forest registry) {way : Way}
    (hchange : Change registry way registry') (hway : way ≠ .setRights) :
    registry'.lasting.Within registry.lasting := by
  intro id who rights h
  obtain ⟨hlasts, hledger'⟩ := lasting_eq_some.mp h
  have hledger := ledger_within_of_change hforest hchange hway id who rights hledger'
  obtain ⟨c, hc⟩ := exists_of_ledger hledger
  obtain ⟨c', hc'⟩ := exists_of_ledger hledger'
  -- The channel has the entry before and afterwards, so it is the same channel.
  have hfate := fate_of_change hforest hchange id
  rw [hc, hc'] at hfate
  have hstores : c'.storesPrivileges = c.storesPrivileges := by
    cases hfate with
    | turned hturns => exact Channel.storesPrivileges_of_turns hturns
  rw [lasts, hc', Option.any_some, hstores] at hlasts
  exact lasting_eq_some.mpr ⟨by rw [lasts, hc, Option.any_some, hlasts], hledger⟩

/-- To set rights changes nothing about what is to last. -/
theorem lasts_of_change (hforest : Forest registry)
    (hchange : Change registry .setRights registry') : registry'.lasts = registry.lasts := by
  funext id who
  have hfate := fate_of_change hforest hchange id
  rw [lasts, lasts]
  generalize registry.channels.get? id = found, registry'.channels.get? id = found' at hfate ⊢
  cases hfate with
  | missing => rfl
  | turned hturns =>
      rw [Option.any_some, Option.any_some, Channel.storesPrivileges_of_turns hturns]

theorem getLast?_looking (old : Option Rights) :
    (looking old).getLast?.or old = some (old.getD .none) := by
  cases old <;> rfl

theorem getLast?_changing (f : Rights → Rights) (old : Option Rights) :
    (changing f old).getLast?.or old = some (f (old.getD .none)) := by
  rw [changing, List.getLast?_concat, Option.some_or]

/-- The last that is written to an entry is what the entry is from now on. -/
theorem ledger_of_getLast?_due {key : Option (ChannelId × Identity)} {f : Rights → Rights}
    {written : Option Rights → List Rights}
    (hledger : registry'.ledger = registry.ledger.change key f)
    (hwritten : ∀ old, (written old).getLast?.or old = some (f (old.getD .none))) {record : Record}
    (h : (registry.due key written).getLast? = some record) :
    registry'.ledger record.channel record.identity = some record.rights := by
  cases key with
  | none => cases h
  | some key =>
      obtain ⟨owner, identity⟩ := key
      rw [due] at h
      split at h
      · rw [List.getLast?_map] at h
        obtain ⟨rights, hrights, rfl⟩ := Option.map_eq_some_iff.mp h
        have hnew := hwritten (registry.ledger owner identity)
        rw [hrights, Option.some_or] at hnew
        rw [hledger, Ledger.change, Ledger.set, if_pos ⟨rfl, rfl⟩, ← hnew]
      · cases h

/-- If the last that is written to an entry is what the entry is from now on, then a table of the
lasting entries, to which it is written, stays one. -/
theorem lasting_within_put {key : Option (ChannelId × Identity)} {f : Rights → Rights}
    {written : Option Rights → List Rights}
    (hledger : registry'.ledger = registry.ledger.change key f)
    (hlasts : registry'.lasts = registry.lasts)
    (hwritten : ∀ old, (written old).getLast?.or old = some (f (old.getD .none))) :
    registry'.lasting.Within (registry.lasting.put (registry.due key written)) := by
  intro id who rights h
  obtain ⟨hlast, hentry⟩ := lasting_eq_some.mp h
  rw [hlasts] at hlast
  rw [hledger] at hentry
  cases key with
  | none => exact lasting_eq_some.mpr ⟨hlast, hentry⟩
  | some key =>
      obtain ⟨owner, identity⟩ := key
      rw [Ledger.change, Ledger.set] at hentry
      by_cases hkey : id = owner ∧ who = identity
      · rw [if_pos hkey] at hentry
        obtain ⟨rfl, rfl⟩ := hkey
        have hold : registry.lasting id who = registry.ledger id who := if_pos hlast
        rw [due, if_pos hlast, Ledger.put_map, if_pos ⟨rfl, rfl⟩, hold, hwritten, hentry]
      · rw [if_neg hkey] at hentry
        have hold : registry.lasting id who = some rights := lasting_eq_some.mpr ⟨hlast, hentry⟩
        rw [due]
        split
        · rw [Ledger.put_map, if_neg hkey, hold]
        · exact hold

end Registry

namespace Session

variable {store : Store} {limits : Limits} {session : Session}

open Registry (Sound)

/-- Either an operation writes to an entry, and the last that is written is what the entry is from
now on, or nothing is handed over, and rights are not set unless stored records are taken over. -/
theorem handedOver_cases (h : Reachable store limits session) (operation : Operation) :
    (∃ key f written, operation.ways = [.setRights] ∧
      session.registry.handedOver operation = session.registry.due key written ∧
      (session.step store operation).2.registry.ledger = session.registry.ledger.change key f ∧
      ∀ old, (written old).getLast?.or old = some (f (old.getD .none))) ∨
    (session.registry.handedOver operation = [] ∧
      ((∃ records, operation = .loadRecords records) ∨
        ∀ way ∈ operation.ways, way ≠ .setRights)) := by
  have hledger := ledger_step h operation
  cases operation with
  | privileges who place =>
      exact .inl ⟨_, fun rights => rights, _, rfl, rfl, hledger, Registry.getLast?_looking⟩
  | grant who place rights =>
      exact .inl ⟨_, (·.union rights), _, rfl, rfl, hledger, Registry.getLast?_changing _⟩
  | revoke who place rights =>
      exact .inl ⟨_, (·.without rights), _, rfl, rfl, hledger, Registry.getLast?_changing _⟩
  | loadRecords records => exact .inr ⟨rfl, .inl ⟨records, rfl⟩⟩
  | _ => exact .inr ⟨rfl, .inr (by simp [Operation.ways, Registry.importing])⟩

/-- The last record that an operation hands over is what the registry has from now on. -/
theorem ledger_of_handedOver (h : Reachable store limits session) {operation : Operation}
    {record : Record} (hlast : (session.registry.handedOver operation).getLast? = some record) :
    (session.step store operation).2.registry.ledger record.channel record.identity =
      some record.rights := by
  rcases handedOver_cases h operation with
    ⟨key, f, written, -, hhanded, hledger, hwritten⟩ | ⟨hnone, -⟩
  · rw [hhanded] at hlast
    exact Registry.ledger_of_getLast?_due hledger hwritten hlast
  · rw [hnone] at hlast
    cases hlast

/-- An operation hands over whatever is new among the lasting entries, unless they were stored
before and are taken over. -/
theorem lasting_step (h : Reachable store limits session) {operation : Operation}
    (hload : ∀ records, operation ≠ .loadRecords records) :
    (session.step store operation).2.registry.lasting.Within
      (session.registry.lasting.put (session.registry.handedOver operation)) := by
  have hsound := Registry.sound_of_reachable h
  rcases handedOver_cases h operation with
    ⟨key, f, written, hways, hhanded, hledger, hwritten⟩ | ⟨hnone, ⟨records, heq⟩ | hways⟩
  · have hlasts : (session.step store operation).2.registry.lasts = session.registry.lasts :=
      step_relates_of_sound (R := fun r r' => r'.lasts = r.lasts) (fun _ => rfl)
        (fun _ _ _ h h' => h'.trans h) (fun _ way _ hr hway hchange => by
          rw [hways, List.mem_singleton] at hway
          subst hway
          exact Registry.lasts_of_change hr.forest hchange) hsound
    rw [hhanded]
    exact Registry.lasting_within_put hledger hlasts hwritten
  · exact absurd heq (hload records)
  · rw [hnone]
    exact step_relates_of_sound (R := fun r r' => r'.lasting.Within r.lasting) (fun _ => .refl _)
      (fun _ _ _ h h' => h'.trans h) (fun _ way _ hr hway hchange =>
        Registry.lasting_within_of_change hr.forest hchange (hways way hway)) hsound

/-- If the records that a session has handed over, written to a table, say of every lasting entry
what the ledger says, then so they do after a run, unless stored records are taken over. -/
theorem lasting_run_of_within (h : Reachable store limits session) {stored : Ledger}
    (hstored : session.registry.lasting.Within (stored.put session.handed))
    (operations : List Operation) (hload : ∀ records, Operation.loadRecords records ∉ operations) :
    (session.run store operations).registry.lasting.Within
      (stored.put (session.run store operations).handed) := by
  induction operations generalizing session with
  | nil => exact hstored
  | cons operation operations ih =>
      have hfirst : ∀ records, operation ≠ .loadRecords records := fun records heq =>
        hload records (heq ▸ List.mem_cons_self)
      refine ih (h.step operation) ?_ fun records hmem =>
        hload records (List.mem_cons_of_mem _ hmem)
      rw [handed_step h, Ledger.put_append]
      exact (lasting_step h hfirst).trans (Ledger.put_within _ hstored)

/-- The records that a run has handed over, written to a table, say of every lasting entry what the
ledger says, unless stored records are taken over. -/
theorem lasting_run (operations : List Operation)
    (hload : ∀ records, Operation.loadRecords records ∉ operations) :
    let session := (start (.empty limits)).run store operations
    session.registry.lasting.Within (Ledger.put session.handed fun _ _ => none) := by
  refine lasting_run_of_within .start (fun id who rights h => ?_) operations hload
  exact absurd (Registry.lasting_eq_some.mp h).2 (by rw [Registry.ledger_of_missing rfl]; simp)

/-- The store of a session has no influence on what the session answers, on its registry, and on
what the store gets.  It gets an empty record when an entry that is to last is made, and the record
with the new rights when the entry is changed.  No other operation hands over anything.  Unless
stored records are taken over, the last that was handed over about an entry that is to last is what
the registry has. -/
theorem handed_of_run (store : Store) (limits : Limits) (operations : List Operation) :
    let session := (start (.empty limits)).run store operations
    (∀ store', let session' := (start (.empty limits)).run store' operations
      (start (.empty limits)).answers store' operations =
          (start (.empty limits)).answers store operations ∧
        session'.registry = session.registry ∧ session'.handed = session.handed) ∧
    (∀ operation,
      let records := session.registry.handedOver operation
      let after := (session.step store operation).2
      after.handed = session.handed ++ records ∧
        (∀ record ∈ records, record.identity.isRegistered = true ∧
          ∃ c ∈ session.registry.channels.entries,
            c.id = record.channel ∧ c.parent = none ∧ c.info.flags.has .unregistered = false) ∧
        ∀ record, records.getLast? = some record →
          after.registry.ledger record.channel record.identity = some record.rights) ∧
    ((∀ records, Operation.loadRecords records ∉ operations) →
      ∀ c ∈ session.registry.channels.entries, c.info.flags.has .unregistered = false →
        ∀ record ∈ c.records, record.identity.isRegistered = true →
          ∃ earlier later, session.handed = earlier ++ record :: later ∧
            ∀ other ∈ later,
              ¬ (other.channel = record.channel ∧ other.identity = record.identity)) := by
  intro session
  have hreachable : Reachable store limits session := reachable_iff.mpr ⟨operations, rfl⟩
  have hforest := Registry.forest_of_reachable hreachable
  refine ⟨?_, ?_, ?_⟩
  · intro store' session'
    have halike : Alike (start (.empty limits)) (start (.empty limits)) := ⟨rfl, rfl⟩
    obtain ⟨hanswers, hrun⟩ := run_alike store' store operations halike
    exact ⟨hanswers, hrun.registry, hrun.handed⟩
  · intro operation records after
    exact ⟨handed_step hreachable operation, fun _ => Registry.worth_handedOver hforest,
      fun _ => ledger_of_handedOver hreachable⟩
  · intro hload c hc hflag record hrecord hregistered
    obtain ⟨-, hown, -, hentries⟩ :=
      (Registry.recorded_of_reachable hreachable).of_mem hforest.distinct hc
    have hfound : session.registry.channels.get? c.id = some c :=
      Slots.get?_of_mem hforest.distinct hc
    have hlasts : session.registry.lasts c.id record.identity = true := by
      rw [Registry.lasts_of_found hfound, Channel.storesPrivileges, hflag, hregistered]
      rfl
    have hledger := ((hentries record).mp hrecord).2
    have hput := lasting_run operations hload c.id record.identity record.rights
      (Registry.lasting_eq_some.mpr ⟨hlasts, hledger⟩)
    rw [← hown record hrecord] at hput
    exact Ledger.exists_last_of_put hput

/-- A store that refuses everything gets two records when rights are granted for the first time, as
any store does, and the second one is what the registry has. -/
theorem handed_of_refused_grant :
    let operations := [.addChannel .preset, .addPlayer (.registered "a" "m" ⟨7⟩) 1,
      .grant ⟨1⟩ ⟨1⟩ .voice]
    let session := (start (.empty {})).run (.refusing (.notStored .workerStopped)) operations
    let record (rights : Rights) : Record :=
      { channel := ⟨1⟩, identity := .registered ⟨7⟩, rights := rights }
    ((start (.empty {})).run .none operations).handed = session.handed ∧
      session.handed = [record .none, record .voice] ∧
      ∃ earlier later, session.handed = earlier ++ record .voice :: later ∧
        ∀ other ∈ later, ¬ (other.channel = ⟨1⟩ ∧ other.identity = .registered ⟨7⟩) := by
  intro operations session record
  obtain ⟨hstores, -, hlast⟩ :=
    handed_of_run (.refusing (.notStored .workerStopped)) {} operations
  have hload (records : List Record) : Operation.loadRecords records ∉ operations := by
    simp [operations]
  have hc : { id := ⟨1⟩, info := .preset, records := [record .voice] } ∈
      session.registry.channels.entries := by
    decide +kernel
  exact ⟨(hstores .none).2.2, by decide +kernel,
    hlast hload _ hc (by decide) (record .voice) (List.mem_singleton_self _) rfl⟩

end Session

end ChannelServer
