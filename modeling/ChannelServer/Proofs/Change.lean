import ChannelServer.Proofs.Effect.Privileges
import ChannelServer.Proofs.Metadata
import Mathlib.Logic.Relation

/-!
# Changes of a registry

Twenty-three operations change a registry in thirteen ways.  `Change` lists these ways, each with
everything that is known when it happens; `settles_perform` says that every operation, an import
included, is a sequence of changes in the ways that it takes, or else it fails, and then it is as if
it had not been tried.

An invariant is then shown once for each way and holds of every registry that is ever seen, also in
the middle of an import.  What only some operations keep is shown for the ways that they take.

## Main results

* `changes_step`: an operation is a sequence of changes in its own ways.
* `step_of_fault`: an operation that fails changes nothing.
* `answer_iff`: when an operation that does all or nothing succeeds, and with which answer.
* `step_relates`: whatever holds of the ways of an operation holds of the operation.
* `invariant_of_reachable`: what every change keeps holds in every reachable session.
-/

namespace ChannelServer

/-- A channel and what an edit of its metadata or its password makes of it. -/
structure Channel.Edited (c c' : Channel) : Prop where
  id : c'.id = c.id
  parent : c'.parent = c.parent
  subchannels : c'.subchannels = c.subchannels
  members : c'.members = c.members
  records : c'.records = c.records
  capacity : c'.info.capacity = c.info.capacity
  /-- Of the flags, only that of the password may be another. -/
  flags : c'.info.flags.without .password = c.info.flags.without .password
  valid : c.info.check = .ok () → c'.info.check = .ok ()

/-- An edit leaves every flag alone that has nothing to do with the password. -/
theorem Channel.Edited.has_eq {c c' : Channel} (h : c.Edited c') {flag : Flags}
    (hflag : ~~~Flags.password.bits &&& flag.bits = flag.bits) :
    c'.info.flags.has flag = c.info.flags.has flag := by
  rw [← Flags.has_without_of_disjoint c'.info.flags hflag, h.flags,
    Flags.has_without_of_disjoint c.info.flags hflag]

namespace Registry

/-- The ways in which a registry changes. -/
inductive Way where
  | add
  | unlink
  | graft
  | remove
  | crown
  | edit
  | setRights
  | arrive
  | depart
  | seat
  | quit
  | ban
  | unban
deriving DecidableEq

/-- A change of a registry in one of the ways. -/
inductive Change (registry : Registry) : Way → Registry → Prop where
  | add {id : ChannelId} {info : Metadata} (h : Admissible registry id info) :
      Change registry .add (registry.withChannel id info)
  | unlink {parent child : ChannelId} (h : Detachable registry parent child) :
      Change registry .unlink (registry.unlink parent child)
  | graft {parent child : ChannelId} {p c : Channel} (h : Attachable registry parent child p c) :
      Change registry .graft (registry.graft parent child)
  | remove {id : ChannelId} {c : Channel} (found : registry.channels.get? id = some c)
      (top : c.parent = none) : Change registry .remove (registry.remove id c)
  | crown {id : ChannelId} (h : IsTop registry id) : Change registry .crown (registry.crown id)
  | edit {id : ChannelId} {f : Channel → Channel} {c : Channel}
      (found : registry.channels.get? id = some c) (edited : c.Edited (f c)) :
      Change registry .edit (registry.withChange id f)
  | setRights {place : ChannelId} {owner : Channel} {identity : Identity} {rights : Rights}
      (owns : registry.owner place = .ok owner)
      (found : registry.channels.get? owner.id = some owner)
      (known : ∀ who, identity = .unregistered who → ∃ p, registry.players.get? who = some p) :
      Change registry .setRights
        (registry.withChange owner.id (Channel.setRights identity rights))
  | arrive {player : Player} (fresh : registry.players.get? player.id = none)
      (nowhere : player.channel = none)
      (room : registry.players.entries.length < registry.players.capacity) :
      Change registry .arrive (registry.withPlayer player)
  | depart {id : PlayerId} {player : Player} (known : registry.players.get? id = some player) :
      Change registry .depart (registry.withoutPlayer id)
  | seat {target : ChannelId} {who : PlayerId} {c : Channel} {p : Player}
      (h : Seatable registry target who c p) : Change registry .seat (registry.seat target who)
  | quit {who : PlayerId} {p : Player} (known : registry.players.get? who = some p) :
      Change registry .quit (registry.quit who p)
  | ban {ban : Ban} (fresh : registry.bans.get? ban.id = none)
      (room : registry.bans.entries.length < registry.bans.capacity) :
      Change registry .ban (registry.withBan ban)
  | unban {id : BanId} : Change registry .unban (registry.withoutBan id)

/-- A sequence of changes, each in one of the given ways. -/
abbrev Changes (ways : List Way) : Registry → Registry → Prop :=
  Relation.ReflTransGen fun r r' => ∃ way ∈ ways, Change r way r'

section Changes

variable {ways : List Way} {registry registry' : Registry}

theorem changes_refl (registry : Registry) : Changes ways registry registry := .refl

theorem changes_trans (r r' r'' : Registry) (h : Changes ways r r') (h' : Changes ways r' r'') :
    Changes ways r r'' := h.trans h'

/-- One change, in the only way there is. -/
theorem changes_single {way : Way} (h : Change registry way registry') :
    Changes [way] registry registry' :=
  .single ⟨way, List.mem_singleton_self way, h⟩

theorem changes_mono {ways' : List Way} (hways : ways ⊆ ways')
    (h : Changes ways registry registry') : Changes ways' registry registry' :=
  Relation.ReflTransGen.mono (fun _ _ ⟨way, hway, hchange⟩ => ⟨way, hways hway, hchange⟩) _ _ h

/-- What is reflexive and transitive and holds of every change holds of a sequence of them. -/
theorem relates_of_changes {R : Registry → Registry → Prop} (hrefl : ∀ r, R r r)
    (htrans : ∀ r r' r'', R r r' → R r' r'' → R r r'')
    (hchange : ∀ r way r', way ∈ ways → Change r way r' → R r r')
    (h : Changes ways registry registry') : R registry registry' := by
  induction h with
  | refl => exact hrefl _
  | tail _ hlast ih =>
      obtain ⟨way, hway, hlast⟩ := hlast
      exact htrans _ _ _ ih (hchange _ way _ hway hlast)

end Changes

/-! ## Channels -/

section Channels

variable {registry : Registry}

theorem settles_addChannelAs (id : ChannelId) (info : Metadata) :
    Settles (Changes [.add]) (addChannelAs id info) registry :=
  (addChannelAs_allOrNothing id info).settles fun h => changes_single (.add h)

theorem settles_addChannel (info : Metadata) :
    Settles (Changes [.add]) (addChannel info) registry :=
  (addChannel_givesNext info).settles fun _ h => changes_single (.add h)

theorem settles_attach (parent child : ChannelId) :
    Settles (Changes [.graft]) (attach parent child) registry :=
  (attach_allOrNothing parent child).settles fun ⟨_, _, h⟩ => changes_single (.graft h)

theorem settles_detach (parent child : ChannelId) :
    Settles (Changes [.unlink]) (detach parent child) registry :=
  (detach_allOrNothing parent child).settles fun h => changes_single (.unlink h)

theorem settles_setDefault (id : ChannelId) :
    Settles (Changes [.crown]) (setDefault id) registry :=
  (setDefault_allOrNothing id).settles fun h => changes_single (.crown h)

/-- A channel that is free is a top channel, and apart from that, what it was if it was one. -/
theorem get?_free_self {id : ChannelId} {c : Channel}
    (hfound : registry.channels.get? id = some c) :
    ∃ freed, (registry.free id).channels.get? id = some freed ∧ freed.parent = none := by
  cases hparent : c.parent with
  | none => exact ⟨c, by rw [free_of_top hfound hparent, hfound], hparent⟩
  | some parent =>
      obtain ⟨c', hc'⟩ := Slots.exists_get?_modify parent (Channel.release id)
        (fun _ => rfl) hfound
      refine ⟨c'.rise, ?_, rfl⟩
      rw [free_of_below hfound hparent, unlink, Slots.get?_modify _ _ _ Channel.rise fun _ => rfl,
        if_pos rfl, hc', Option.map_some]

theorem changes_free {id : ChannelId} {c : Channel}
    (hfound : registry.channels.get? id = some c) (hparents : ParentFound registry c) :
    Changes [.unlink] registry (registry.free id) := by
  cases hparent : c.parent with
  | none => rw [free_of_top hfound hparent]
  | some parent =>
      rw [free_of_below hfound hparent]
      exact changes_single (.unlink ⟨c, hfound, hparent, hparents⟩)

theorem settles_destroyChannel (id : ChannelId) :
    Settles (Changes [.unlink, .remove]) (destroyChannel id) registry := by
  by_cases h : ∃ c, registry.channels.get? id = some c ∧ ParentFound registry c
  · obtain ⟨c, hfound, hparents⟩ := h
    obtain ⟨freed, hfreed, htop⟩ := get?_free_self hfound
    have hfree : Changes [.unlink, .remove] registry (registry.free id) :=
      changes_mono (by simp) (changes_free hfound hparents)
    exact .inl ⟨_, _, destroyChannel_ok hfound hparents hfreed,
      hfree.tail ⟨.remove, by simp, .remove hfreed htop⟩⟩
  · exact .inr (destroyChannel_refused h)

/-! ### Edits -/

/-- Another password is an edit, with the flag that says whether there is one. -/
theorem edited_password (password : Password) {c : Channel} {flags : Flags}
    (hflags : flags.without .password = c.info.flags.without .password) :
    c.Edited { c.setFlags flags with password := password } where
  id := rfl
  parent := rfl
  subchannels := rfl
  members := rfl
  records := rfl
  capacity := rfl
  flags := hflags
  valid h := Metadata.check_setFlags h fun hdefault => by
    have hdisjoint : ~~~Flags.password.bits &&& Flags.default.bits = Flags.default.bits := by
      decide
    rwa [← Flags.has_without_of_disjoint flags hdisjoint, hflags,
      Flags.has_without_of_disjoint c.info.flags hdisjoint]

theorem edited_protect (password : Password) (c : Channel) : c.Edited (c.protect password) :=
  edited_password password (Flags.union_without_self _ _)

theorem edited_unprotect (c : Channel) : c.Edited c.unprotect :=
  edited_password .empty (Flags.without_without_self _ _)

section Edits

variable {id : ChannelId}

theorem settles_editChannel {edit : Channel → Except Fault Channel}
    (h : ∀ c c', edit c = .ok c' → c.Edited c') :
    Settles (Changes [.edit]) (editChannel id edit) registry := by
  obtain ⟨-, hok⟩ | ⟨c, c', hfound, hc', hok⟩ | ⟨c, fault, -, -, herror⟩ :=
    editChannel_cases id edit
  · exact .inl ⟨false, registry, hok, .refl⟩
  · exact .inl ⟨true, _, hok, changes_single (.edit hfound (h c c' hc'))⟩
  · exact .inr ⟨fault, herror⟩

theorem settles_setText (field : Field) (text : String) :
    Settles (Changes [.edit]) (setText id field text) registry := by
  apply settles_editChannel
  intro c c' hc'
  cases hcheck : (c.info.setText field text).check with
  | error fault => simp [hcheck, bind, Except.bind] at hc'
  | ok _ =>
      simp only [hcheck, bind, Except.bind, pure, Except.pure, Except.ok.injEq] at hc'
      subst hc'
      have hsame : (c.info.setText field text).capacity = c.info.capacity ∧
          (c.info.setText field text).flags = c.info.flags := by
        cases field <;> exact ⟨rfl, rfl⟩
      exact ⟨rfl, rfl, rfl, rfl, rfl, hsame.1, by rw [hsame.2], fun _ => hcheck⟩

theorem settles_setSortOrder (sortOrder : UInt16) :
    Settles (Changes [.edit]) (setSortOrder id sortOrder) registry := by
  apply settles_editChannel
  intro c c' hc'
  cases hc'
  exact ⟨rfl, rfl, rfl, rfl, rfl, rfl, rfl, fun h => h⟩

theorem settles_setCodec (codec : Codec) :
    Settles (Changes [.edit]) (setCodec id codec) registry := by
  apply settles_editChannel
  intro c c' hc'
  cases hc'
  exact ⟨rfl, rfl, rfl, rfl, rfl, rfl, rfl, fun h => h⟩

theorem settles_setPassword (bytes : List UInt8) :
    Settles (Changes [.edit]) (setPassword id bytes) registry := by
  cases hpassword : Password.ofBytes bytes with
  | error fault => exact .inr (setPassword_refused hpassword)
  | ok password =>
      exact (setPassword_allOrNothing hpassword).settles fun ⟨c, hfound, _⟩ =>
        changes_single (.edit hfound (edited_protect password c))

theorem settles_clearPassword : Settles (Changes [.edit]) (clearPassword id) registry :=
  (clearPassword_allOrNothing id).settles fun ⟨c, hfound, _⟩ =>
    changes_single (.edit hfound (edited_unprotect c))

end Edits

end Channels

/-! ## Players, bans and stored records -/

section Players

variable {registry : Registry}

theorem settles_addPlayer (newcomer : Newcomer) (secret : UInt32) :
    Settles (Changes [.arrive]) (addPlayer newcomer secret) registry :=
  (addPlayer_givesNext newcomer secret).settles fun hnext hroom =>
    changes_single (.arrive hnext.get?_eq_none rfl hroom)

theorem succeeds_removePlayer (id : PlayerId) : Succeeds (Changes [.depart]) (removePlayer id) := by
  intro registry
  cases h : registry.players.get? id with
  | none => exact ⟨none, registry, removePlayer_of_missing h, .refl⟩
  | some player => exact ⟨some player, _, removePlayer_of_found h, changes_single (.depart h)⟩

theorem settles_join (target : ChannelId) (who : PlayerId) :
    Settles (Changes [.seat]) (join target who) registry :=
  (join_allOrNothing target who).settles fun ⟨_, _, h⟩ => changes_single (.seat h)

/-- Moving is leaving and then taking a seat. -/
theorem settles_move (who : PlayerId) (target : ChannelId) :
    Settles (Changes [.quit, .seat]) (move who target) registry := by
  cases hp : registry.players.get? who with
  | none => exact .inr (move_refused (.inl hp))
  | some p =>
      cases hc : registry.channels.get? target with
      | none => exact .inr (move_refused (.inr hc))
      | some c =>
          by_cases hthere : p.channel = some target
          · exact .inl ⟨(), registry, move_of_there hp hc hthere, .refl⟩
          · refine (move_allOrNothing hp hc hthere).settles fun hroom => ?_
            have hquit : Changes [.quit, .seat] registry (registry.quit who p) :=
              .single ⟨.quit, by simp, .quit hp⟩
            exact hquit.tail ⟨.seat, by simp, .seat (seatable_quit hp hc hthere hroom)⟩

theorem settles_leave (who : PlayerId) : Settles (Changes [.quit]) (leave who) registry := by
  cases hp : registry.players.get? who with
  | none => exact .inr (leave_of_unknown hp)
  | some p => exact .inl ⟨_, _, leave_of_known hp, changes_single (.quit hp)⟩

theorem settles_addBan (ban : NewBan) : Settles (Changes [.ban]) (addBan ban) registry :=
  (addBan_givesNext ban).settles fun hnext hroom =>
    changes_single (.ban hnext.get?_eq_none hroom)

theorem succeeds_removeBan (id : BanId) : Succeeds (Changes [.unban]) (removeBan id) :=
  fun _ => ⟨_, _, removeBan_apply id, changes_single .unban⟩

theorem owner_of_missing {id : ChannelId} (h : registry.channels.get? id = none) :
    registry.owner id = .error (.missing (.channel id)) := by
  simp [owner, channel_eq_error h, bind, Except.bind]

/-- A top channel owns the records of its group. -/
theorem owner_of_top {id : ChannelId} {c : Channel} (hfound : registry.channels.get? id = some c)
    (htop : c.parent = none) : registry.owner id = .ok c := by
  simp [owner, channel_eq_ok.mpr hfound, htop, bind, Except.bind, pure, Except.pure]

theorem owner_of_below {id parent : ChannelId} {c p : Channel}
    (hfound : registry.channels.get? id = some c) (hbelow : c.parent = some parent)
    (hparent : registry.channels.get? parent = some p) : registry.owner id = .ok p := by
  simp [owner, channel_eq_ok.mpr hfound, hbelow, channel_eq_ok.mpr hparent, bind, Except.bind]

/-- The owner of a record is found under its own id. -/
theorem get?_owner {id : ChannelId} {owner : Channel} (h : registry.owner id = .ok owner) :
    registry.channels.get? owner.id = some owner := by
  have hself {id : ChannelId} (h : registry.channels.get? id = some owner) :
      registry.channels.get? owner.id = some owner := by
    have hid : owner.id = id := Slots.id_of_get? h
    rw [hid, h]
  cases hfound : registry.channels.get? id with
  | none =>
      rw [owner_of_missing hfound] at h
      cases h
  | some c =>
      cases hparent : c.parent with
      | none =>
          rw [owner_of_top hfound hparent] at h
          cases h
          exact hself hfound
      | some parent =>
          cases hp : registry.channels.get? parent with
          | none =>
              simp [Registry.owner, channel_eq_ok.mpr hfound, hparent, channel_eq_error hp, bind,
                Except.bind] at h
          | some p =>
              rw [owner_of_below hfound hparent hp] at h
              cases h
              exact hself hp

/-- A change of the owner is seen by everybody who asks for the owner. -/
theorem owner_withChange {id : ChannelId} {owner : Channel} {f : Channel → Channel}
    (hid : ∀ c, (f c).id = c.id) (hparent : ∀ c, (f c).parent = c.parent)
    (h : registry.owner id = .ok owner) :
    (registry.withChange owner.id f).owner id = .ok (f owner) := by
  have hget := @get?_withChange registry owner.id f fun c _ => hid c
  have howner : (registry.withChange owner.id f).channels.get? owner.id = some (f owner) := by
    rw [hget, if_pos rfl, get?_owner h, Option.map_some]
  cases hfound : registry.channels.get? id with
  | none =>
      rw [owner_of_missing hfound] at h
      cases h
  | some c =>
      cases hbelow : c.parent with
      | none =>
          rw [owner_of_top hfound hbelow] at h
          cases h
          have hself : owner.id = id := Slots.id_of_get? hfound
          exact owner_of_top (hself ▸ howner) ((hparent owner).trans hbelow)
      | some parent =>
          cases hp : registry.channels.get? parent with
          | none =>
              simp [Registry.owner, channel_eq_ok.mpr hfound, hbelow, channel_eq_error hp, bind,
                Except.bind] at h
          | some p =>
              rw [owner_of_below hfound hbelow hp] at h
              cases h
              have hself : owner.id = parent := Slots.id_of_get? hp
              obtain ⟨c', hc', hc'parent⟩ : ∃ c',
                  (registry.withChange owner.id f).channels.get? id = some c' ∧
                    c'.parent = some parent := by
                rw [hget, hfound]
                split
                · exact ⟨f c, rfl, (hparent c).trans hbelow⟩
                · exact ⟨c, rfl, hbelow⟩
              exact owner_of_below hc' hc'parent (hself ▸ howner)

theorem succeeds_loadRecords (records : List Record) :
    Succeeds (Changes [.setRights]) (loadRecords records) := by
  induction records with
  | nil => exact .pure changes_refl _
  | cons record records ih =>
      intro registry
      by_cases h : Loadable registry record
      · obtain ⟨hidentity, c, hfound, htop⟩ := h
        have hid : c.id = record.channel := Slots.id_of_get? hfound
        have hload := loadRecord?_of_loadable ⟨hidentity, c, hfound, htop⟩
        obtain ⟨count, after, hok, hchanges⟩ := ih (registry.withChange record.channel
          (Channel.setRights record.identity record.rights))
        refine ⟨count + 1, after, by simp [loadRecords, hload, hok], ?_⟩
        refine .head ⟨.setRights, by simp, ?_⟩ hchanges
        rw [← hid] at hfound ⊢
        refine .setRights (owner_of_top hfound htop) hfound fun who hwho => ?_
        rw [hwho] at hidentity
        cases hidentity
      · obtain ⟨count, after, hok, hchanges⟩ := ih registry
        exact ⟨count, after, by simp [loadRecords, loadRecord?_of_not_loadable h, hok], hchanges⟩

end Players

/-! ## Imports -/

/-- The ways of an import: channels come, are put below each other, and go again. -/
def importing : List Way := [.add, .unlink, .graft, .remove]

theorem succeeds_addAll (report : ImportReport) (pending : List Pending)
    (entries : List Wire.Entry) : Succeeds (Changes importing) (addAll report pending entries) := by
  induction entries generalizing report pending with
  | nil => exact .pure changes_refl _
  | cons entry entries ih =>
      rw [addAll]
      have hadd : Succeeds (Changes importing) (attempt (addChannelAs entry.id entry.info)) :=
        .attempt changes_refl fun _ =>
          (settles_addChannelAs _ _).imp fun _ => changes_mono (by simp [importing])
      refine .bind changes_trans hadd fun answer => ?_
      cases answer with
      | ok _ => exact ih _ _
      | error fault => exact ih _ _

/-- Discarding keeps to whatever destroying a channel keeps to. -/
theorem succeeds_discardWithin {R : Registry → Registry → Prop} (hrefl : ∀ r, R r r)
    (htrans : ∀ r r' r'', R r r' → R r' r'' → R r r'')
    (hdestroy : ∀ id registry, Settles R (destroyChannel id) registry) (depth : Nat)
    (id : ChannelId) (fault : Fault) (report : ImportReport) :
    Succeeds R (discardWithin depth id fault report) := by
  induction depth generalizing id fault report with
  | zero => exact .pure hrefl _
  | succ depth ih =>
      rw [discardWithin]
      refine .bind htrans (.attempt hrefl (hdestroy id)) fun answer => ?_
      cases answer with
      | error fault => exact .pure hrefl _
      | ok children =>
          generalize report.discard id fault = report
          simp only
          induction children generalizing report with
          | nil => exact .pure hrefl _
          | cons child children ihChildren =>
              rw [List.foldlM_cons]
              exact .bind htrans (ih _ _ _) fun report => ihChildren report

theorem succeeds_attachAll (report : ImportReport) (pending : List Pending) :
    Succeeds (Changes importing) (attachAll report pending) := by
  induction pending generalizing report with
  | nil => exact .pure changes_refl _
  | cons first pending ih =>
      obtain ⟨child, parent⟩ := first
      rw [attachAll]
      refine .bind changes_trans (.get changes_refl) fun registry => ?_
      split
      · have hattach : Succeeds (Changes importing) (attempt (attach parent child)) :=
          .attempt changes_refl fun _ =>
          (settles_attach _ _).imp fun _ => changes_mono (by simp [importing])
        refine .bind changes_trans hattach fun answer => ?_
        cases answer with
        | ok _ => exact ih _
        | error fault =>
            refine .bind changes_trans ?_ fun report => ih report
            have hdestroy (id : ChannelId) (registry : Registry) :
                Settles (Changes importing) (destroyChannel id) registry :=
              (settles_destroyChannel _).imp fun _ => changes_mono (by simp [importing])
            exact .bind changes_trans (.get changes_refl) fun registry =>
              succeeds_discardWithin changes_refl changes_trans hdestroy _ _ _ _
      · exact ih _

theorem succeeds_importBatch (entries : List Wire.Entry) :
    Succeeds (Changes importing) (importBatch entries) :=
  .bind changes_trans (succeeds_addAll _ _ _) fun _ => succeeds_attachAll _ _

theorem succeeds_importStream (stream : List UInt8) :
    Succeeds (Changes importing) (importStream stream) :=
  .bind changes_trans (succeeds_importBatch _) fun _ => .pure changes_refl _

end Registry

/-! ## Sessions -/

/-- The ways in which an operation changes a registry. -/
def Operation.ways : Operation → List Registry.Way
  | addChannel _ => [.add]
  | destroyChannel _ => [.unlink, .remove]
  | attach _ _ => [.graft]
  | detach _ _ => [.unlink]
  | setDefault _ => [.crown]
  | setPassword _ _ | clearPassword _ | setText _ _ _ | setSortOrder _ _ | setCodec _ _ => [.edit]
  | addPlayer _ _ => [.arrive]
  | removePlayer _ => [.depart]
  | join _ _ => [.seat]
  | move _ _ => [.quit, .seat]
  | leave _ => [.quit]
  | privileges _ _ | grant _ _ _ | revoke _ _ _ | loadRecords _ => [.setRights]
  | addBan _ => [.ban]
  | removeBan _ => [.unban]
  | importBatch _ | importStream _ => Registry.importing

namespace Session

variable {store : Store} {session : Session}

theorem step_snd (operation : Operation) :
    (session.step store operation).2 = leaves (operation.perform store) session := by
  unfold step leaves
  cases operation.perform store session <;> rfl

theorem registry_leaves_onRegistry {α : Type} (action : Registry.Action α) (session : Session) :
    (leaves (onRegistry action) session).registry = leaves action session.registry := by
  simp only [leaves, onRegistry_apply]
  cases action session.registry <;> rfl

/-- What is left of the registry when a session carries out an action on it and answers. -/
theorem registry_leaves_onRegistry_bind {α β : Type} (action : Registry.Action α) (answer : α → β)
    (session : Session) :
    (leaves (onRegistry action >>= fun a => pure (answer a)) session).registry =
      leaves action session.registry := by
  rw [leaves_bind_pure, registry_leaves_onRegistry]

/-- An operation succeeds if it only has to carry out an action on the registry that does. -/
theorem step_of_ok {α : Type} {action : Registry.Action α} {answer : α → Answer}
    {operation : Operation} {a : α} {registry : Registry}
    (hok : action session.registry = .ok a registry)
    (hperform : operation.perform store = onRegistry action >>= fun a => pure (answer a)) :
    session.step store operation = (.ok (answer a), { session with registry }) := by
  simp only [step, hperform, bind_apply, onRegistry_apply, hok, pure_apply]

/-- An operation fails if it begins with an action on the registry that does. -/
theorem step_of_error {α : Type} {action : Registry.Action α} {answer : α → Answer}
    {operation : Operation} {fault : Fault} {registry : Registry}
    (herror : action session.registry = .error fault registry)
    (hperform : operation.perform store = onRegistry action >>= fun a => pure (answer a)) :
    session.step store operation = (.error fault, { session with registry }) := by
  simp only [step, hperform, bind_apply, onRegistry_apply, herror]

section AllOrNothing

variable {α : Type} {action : Registry.Action α} {answer : α → Answer} {operation : Operation}
  {condition : Prop} {a : α} {after : Registry}

/-- An operation that does all or nothing succeeds exactly under the condition, with its answer. -/
theorem answer_iff (h : Registry.AllOrNothing action session.registry condition a after)
    (hperform : operation.perform store = onRegistry action >>= fun a => pure (answer a))
    {result : Answer} :
    (session.step store operation).1 = .ok result ↔ condition ∧ answer a = result := by
  rcases h.cases with ⟨hcondition, hok⟩ | ⟨hcondition, fault, herror⟩
  · rw [step_of_ok hok hperform, Except.ok.injEq]
    exact (and_iff_right hcondition).symm
  · rw [step_of_error herror hperform]
    exact iff_of_false nofun fun hboth => hcondition hboth.1

section Done

variable {action : Registry.Action Unit}
  (h : Registry.AllOrNothing action session.registry condition () after)
  (hperform : operation.perform store = onRegistry action >>= fun _ => pure .done)
include h hperform

theorem done_iff : (session.step store operation).1 = .ok .done ↔ condition :=
  (answer_iff h hperform).trans (and_iff_left rfl)

/-- What is left by an operation that does all or nothing, if it succeeds. -/
theorem snd_step_of_done (hdone : (session.step store operation).1 = .ok .done) :
    (session.step store operation).2 = { session with registry := after } := by
  rw [step_of_ok (h.ok ((done_iff h hperform).mp hdone)) hperform]

end Done

end AllOrNothing

section GivesNext

variable {α κ : Type} [Identified α κ] [Numbered κ] {slots : Slots α} {action : Registry.Action κ}
  {answer : κ → Answer} {operation : Operation} {condition : κ → Prop} {after : κ → Registry}
  (h : Registry.GivesNext action session.registry slots condition after)
  (hperform : operation.perform store = onRegistry action >>= fun id => pure (answer id))
  (hanswer : ∀ {id id'}, answer id = answer id' → id = id') {id : κ}
include h hperform hanswer

/-- The id that an operation answers was the next one, and the registry after it is known. -/
theorem given_of_answer (hok : (session.step store operation).1 = .ok (answer id)) :
    slots.Next id ∧ condition id ∧ (session.step store operation).2.registry = after id := by
  rcases h.cases with ⟨id', hnext, hcondition, hgiven⟩ | ⟨fault, herror⟩
  · rw [step_of_ok hgiven hperform] at hok ⊢
    cases hanswer (Except.ok.inj hok)
    exact ⟨hnext, hcondition, rfl⟩
  · rw [step_of_error herror hperform] at hok
    cases hok

/-- An operation that gives the next id away answers with it exactly if nothing else speaks against
it. -/
theorem answer_next_iff :
    (session.step store operation).1 = .ok (answer id) ↔ slots.Next id ∧ condition id := by
  constructor
  · intro hok
    obtain ⟨hnext, hcondition, -⟩ := given_of_answer h hperform hanswer hok
    exact ⟨hnext, hcondition⟩
  · rintro ⟨hnext, hcondition⟩
    exact (answer_iff (h.next hnext) hperform).mpr ⟨hcondition, rfl⟩

end GivesNext

/-- Only an unregistered identity names a player. -/
theorem known_of_identity {registry : Registry} {who : PlayerId} {p : Player}
    (hp : registry.players.get? who = some p) :
    ∀ who', p.identity = .unregistered who' →
      ∃ p', registry.players.get? who' = some p' := by
  intro who' hidentity
  have hid : p.id = who := Slots.id_of_get? hp
  have hwho : who' = who := by
    unfold Player.identity at hidentity
    split at hidentity
    · split at hidentity
      · cases hidentity
      · cases hidentity
        exact hid
    · cases hidentity
      exact hid
  exact ⟨p, hwho ▸ hp⟩

theorem change_looked {who : PlayerId} {place : ChannelId} {p : Player} {owner : Channel}
    (hp : session.registry.players.get? who = some p)
    (howner : session.registry.owner place = .ok owner) :
    Registry.Change session.registry .setRights (looked owner p.identity session.registry) :=
  .setRights howner (Registry.get?_owner howner) (known_of_identity hp)

/-- A player and the owner of a channel are found, or one of them is missing. -/
theorem owner_cases (registry : Registry) (who : PlayerId) (place : ChannelId) :
    (∃ p owner, registry.players.get? who = some p ∧ registry.owner place = .ok owner) ∨
      registry.players.get? who = none ∨ ∃ fault, registry.owner place = .error fault := by
  cases hp : registry.players.get? who with
  | none => exact .inr (.inl rfl)
  | some p =>
      cases howner : registry.owner place with
      | error fault => exact .inr (.inr ⟨fault, rfl⟩)
      | ok owner => exact .inl ⟨p, owner, rfl, rfl⟩

/-- The registries of two sessions are related by changes in some ways. -/
def Changes (ways : List Registry.Way) (session session' : Session) : Prop :=
  Registry.Changes ways session.registry session'.registry

theorem settles_onRegistry {α : Type} {action : Registry.Action α} {ways : List Registry.Way}
    (h : Settles (Registry.Changes ways) action session.registry) :
    Settles (Changes ways) (onRegistry action) session := by
  obtain ⟨answer, registry, hok, hchanges⟩ | ⟨fault, herror⟩ := h
  · exact .inl ⟨answer, { session with registry }, by rw [onRegistry_apply, hok], hchanges⟩
  · exact .inr ⟨fault, by rw [onRegistry_apply, herror]⟩

theorem settles_privileges (who : PlayerId) (place : ChannelId) :
    Settles (Changes [.setRights]) (privileges store who place) session := by
  obtain ⟨p, owner, hp, howner⟩ | hmissing := owner_cases session.registry who place
  · obtain ⟨after, hok, hregistry, -⟩ := privileges_ok store hp howner (Registry.get?_owner howner)
    refine .inl ⟨_, after, hok, ?_⟩
    rw [Changes, hregistry]
    exact Registry.changes_single (change_looked hp howner)
  · exact .inr (privileges_refused store hmissing)

theorem settles_changeRights (who : PlayerId) (place : ChannelId) (change : Rights → Rights) :
    Settles (Changes [.setRights]) (changeRights store who place change) session := by
  obtain ⟨p, owner, hp, howner⟩ | hmissing := owner_cases session.registry who place
  · obtain ⟨after, hok, hregistry, -⟩ :=
      changeRights_ok store change hp howner (Registry.get?_owner howner)
    have howner' := Registry.owner_withChange
      (f := Channel.setRights p.identity ((owner.rights? p.identity).getD .none))
      (fun c => Channel.id_setRights _ _) (fun c => Channel.parent_setRights _ _) howner
    have hid := Channel.id_setRights (c := owner) p.identity
      ((owner.rights? p.identity).getD .none)
    have hsecond := @Registry.Change.setRights _ _ _ p.identity
      (change ((owner.rights? p.identity).getD .none)) howner'
      (Registry.get?_owner howner') (known_of_identity hp)
    rw [hid] at hsecond
    refine .inl ⟨_, after, hok, ?_⟩
    rw [Changes, hregistry]
    exact (Registry.changes_single (change_looked hp howner)).tail ⟨.setRights, by simp, hsecond⟩
  · exact .inr (changeRights_refused store change hmissing)

/-- Every operation changes the registry in its own ways, or it fails and leaves the session as it
was. -/
theorem settles_perform (operation : Operation) :
    Settles (Changes operation.ways) (operation.perform store) session := by
  have honly {α : Type} {action : Registry.Action α} (answer : α → Answer)
      {ways : List Registry.Way} (h : Settles (Registry.Changes ways) action session.registry) :
      Settles (Changes ways) (onRegistry action >>= fun a => pure (answer a)) session :=
    (settles_onRegistry h).bind_pure answer
  cases operation with
  | addChannel info => exact honly _ (Registry.settles_addChannel info)
  | destroyChannel id => exact honly _ (Registry.settles_destroyChannel id)
  | attach parent child => exact honly _ (Registry.settles_attach parent child)
  | detach parent child => exact honly _ (Registry.settles_detach parent child)
  | setDefault id => exact honly _ (Registry.settles_setDefault id)
  | setPassword id bytes => exact honly _ (Registry.settles_setPassword bytes)
  | clearPassword id => exact honly _ Registry.settles_clearPassword
  | setText id field text => exact honly _ (Registry.settles_setText field text)
  | setSortOrder id sortOrder => exact honly _ (Registry.settles_setSortOrder sortOrder)
  | setCodec id codec => exact honly _ (Registry.settles_setCodec codec)
  | addPlayer newcomer secret => exact honly _ (Registry.settles_addPlayer newcomer secret)
  | removePlayer id => exact honly _ ((Registry.succeeds_removePlayer id).settles _)
  | join target who => exact honly _ (Registry.settles_join target who)
  | move who target => exact honly _ (Registry.settles_move who target)
  | leave who => exact honly _ (Registry.settles_leave who)
  | privileges who place => exact (settles_privileges who place).bind_pure _
  | grant who place rights => exact (settles_changeRights who place _).bind_pure _
  | revoke who place rights => exact (settles_changeRights who place _).bind_pure _
  | loadRecords records => exact honly _ ((Registry.succeeds_loadRecords records).settles _)
  | addBan ban => exact honly _ (Registry.settles_addBan ban)
  | removeBan id => exact honly _ ((Registry.succeeds_removeBan id).settles _)
  | importBatch entries => exact honly _ ((Registry.succeeds_importBatch entries).settles _)
  | importStream stream => exact honly _ ((Registry.succeeds_importStream stream).settles _)

/-- Every operation changes the registry in its own ways only, whether it succeeds or fails. -/
theorem changes_step (operation : Operation) :
    Registry.Changes operation.ways session.registry
      (session.step store operation).2.registry := by
  rw [step_snd]
  exact (settles_perform operation).relates fun session => Registry.changes_refl session.registry

/-- An operation that fails leaves no trace: the registry is the same, and nothing was handed to the
store. -/
theorem step_of_fault {operation : Operation} {fault : Fault}
    (h : (session.step store operation).1 = .error fault) :
    session.step store operation = (.error fault, session) := by
  unfold step at h ⊢
  cases hperform : operation.perform store session with
  | ok answer after =>
      rw [hperform] at h
      cases h
  | error fault' after =>
      rw [hperform] at h
      cases h
      rw [(settles_perform operation).eq_of_error hperform]

/-- Whoever cannot move to a full channel stays in the old one, with the rights held there. -/
theorem step_of_fault_of_full :
    let small : Metadata := { Metadata.preset with capacity := .limited 1 }
    let session := (start (.empty {})).run .none
      [.addChannel .preset, .addChannel small, .addPlayer (.registered "p" "m" ⟨7⟩) 1,
        .addPlayer (.guest "q" "m") 2, .join ⟨1⟩ ⟨1⟩, .join ⟨2⟩ ⟨2⟩, .grant ⟨1⟩ ⟨1⟩ .voice]
    session.handed.length = 2 ∧
      session.step .none (.move ⟨1⟩ ⟨2⟩) = (.error (.channelFull ⟨2⟩ 1), session) := by
  intro small session
  have herror : (session.step .none (.move ⟨1⟩ ⟨2⟩)).1 = .error (.channelFull ⟨2⟩ 1) :=
    @eq_error_of_map _ _ Unit (fun _ => ()) _ _ (by decide +kernel)
  exact ⟨by decide +kernel, step_of_fault herror⟩

theorem run_append_singleton (operations : List Operation) (operation : Operation) :
    session.run store (operations ++ [operation]) =
      ((session.run store operations).step store operation).2 := by
  simp only [run, List.foldl_append, List.foldl_cons, List.foldl_nil]

/-- What is reflexive and transitive and holds of every change in one of the ways of an operation
holds of the operation. -/
theorem step_relates {R : Registry → Registry → Prop} (hrefl : ∀ r, R r r)
    (htrans : ∀ r r' r'', R r r' → R r' r'' → R r r'') {operation : Operation}
    (hchange : ∀ r way r', way ∈ operation.ways → Registry.Change r way r' → R r r') :
    R session.registry (session.step store operation).2.registry :=
  Registry.relates_of_changes hrefl htrans hchange (changes_step operation)

/-- What holds of the empty registry and is kept by every change holds in every reachable
session. -/
theorem invariant_of_reachable {limits : Limits} {Invariant : Registry → Prop}
    (hempty : Invariant (.empty limits))
    (hchange : ∀ r way r', Invariant r → Registry.Change r way r' → Invariant r')
    (h : Reachable store limits session) : Invariant session.registry := by
  induction h with
  | start => exact hempty
  | step operation _ ih =>
      exact step_relates (R := fun r r' => Invariant r → Invariant r') (fun _ h => h)
        (fun _ _ _ h h' hr => h' (h hr)) (fun r way r' _ hstep hr => hchange r way r' hr hstep) ih

end Session

end ChannelServer
