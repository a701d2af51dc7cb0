import ChannelServer.Proofs.Forest

/-!
# The ledger of privileges

Every channel keeps a list of records, but together they are one table: the rights of an identity in
the group of a channel.  `ledger` reads this table off a registry.  Most changes of a registry are
`Quiet`: no record is another and no top channel disappears.  The others make one simple change of
the table each.

## Main results

* `Quiet.ledger`: a quiet change leaves the ledger as it is.
* `ledger_setRights`, `ledger_graft`, `ledger_remove`, `ledger_withoutPlayer`: the changes that are
  not quiet.
-/

namespace ChannelServer

/-- The rights of identities in the groups of channels. -/
abbrev Ledger := ChannelId → Identity → Option Rights

namespace Ledger

/-- The ledger with one entry in place of what it says so far. -/
def set (owner : ChannelId) (identity : Identity) (rights : Rights) (ledger : Ledger) : Ledger :=
  fun id who => if id = owner ∧ who = identity then some rights else ledger id who

/-- The ledger without the entries of a channel. -/
def clear (owner : ChannelId) (ledger : Ledger) : Ledger :=
  fun id who => if id = owner then none else ledger id who

/-- The ledger without the entries of an identity. -/
def forget (identity : Identity) (ledger : Ledger) : Ledger :=
  fun id who => if who = identity then none else ledger id who

end Ledger

namespace Registry

variable {registry registry' : Registry}

/-- The records in the group of a channel. -/
def recordsOf (registry : Registry) (id : ChannelId) : List Record :=
  match registry.channels.get? id with
  | some channel => channel.records
  | none => []

/-- What the records of a registry say. -/
def ledger (registry : Registry) : Ledger := fun id who =>
  ((registry.recordsOf id).find? (·.identity = who)).map (·.rights)

theorem recordsOf_of_found {id : ChannelId} {c : Channel}
    (h : registry.channels.get? id = some c) : registry.recordsOf id = c.records := by
  rw [recordsOf, h]

theorem ledger_of_found {id : ChannelId} {c : Channel} (h : registry.channels.get? id = some c)
    (who : Identity) : registry.ledger id who = c.rights? who := by
  rw [ledger, recordsOf_of_found h]
  rfl

/-! ## Quiet changes -/

/-- No record is another, and who is there or on top still is. -/
structure Quiet (registry registry' : Registry) : Prop where
  records : ∀ id, registry'.recordsOf id = registry.recordsOf id
  top : ∀ id, IsTop registry id → IsTop registry' id
  players : ∀ who p, registry.players.get? who = some p →
    ∃ p', registry'.players.get? who = some p'

/-- The ways of a registry that are quiet. -/
def quietWays : List Way := [.add, .unlink, .crown, .edit, .arrive, .seat, .quit, .ban, .unban]

namespace Quiet

theorem refl (registry : Registry) : Quiet registry registry :=
  ⟨fun _ => rfl, fun _ h => h, fun _ p h => ⟨p, h⟩⟩

theorem trans {registry'' : Registry} (h : Quiet registry registry')
    (h' : Quiet registry' registry'') : Quiet registry registry'' where
  records id := (h'.records id).trans (h.records id)
  top id htop := h'.top id (h.top id htop)
  players who p hp := by
    obtain ⟨p', hp'⟩ := h.players who p hp
    exact h'.players who p' hp'

theorem ledger (h : Quiet registry registry') : registry'.ledger = registry.ledger := by
  funext id who
  rw [Registry.ledger, Registry.ledger, h.records]

/-- Where no channel is touched, only the players matter. -/
theorem of_channels (hsame : registry'.channels = registry.channels)
    (hplayers : ∀ who p, registry.players.get? who = some p →
      ∃ p', registry'.players.get? who = some p') : Quiet registry registry' where
  records id := by rw [recordsOf, recordsOf, hsame]
  top id h := by
    obtain ⟨c, hc, htop⟩ := h
    exact ⟨c, by rw [hsame, hc], htop⟩
  players := hplayers

/-- A change of one channel is quiet if it keeps the records and does not take the channel from the
top. -/
theorem withChange {id : ChannelId} {f : Channel → Channel}
    (hid : ∀ c, registry.channels.get? id = some c → (f c).id = c.id)
    (hrecords : ∀ c, registry.channels.get? id = some c → (f c).records = c.records)
    (htop : ∀ c, registry.channels.get? id = some c → c.parent = none → (f c).parent = none) :
    Quiet registry (registry.withChange id f) := by
  have hget := get?_withChange id f hid
  constructor
  · intro id'
    rw [recordsOf, recordsOf, hget]
    by_cases heq : id' = id
    · rw [if_pos heq]
      subst heq
      cases hc : registry.channels.get? id' with
      | none => rfl
      | some c => exact hrecords c hc
    · rw [if_neg heq]
  · intro id' h
    obtain ⟨c, hc, hctop⟩ := h
    by_cases heq : id' = id
    · subst heq
      exact ⟨f c, by rw [hget, if_pos rfl, hc, Option.map_some], htop c hc hctop⟩
    · exact ⟨c, by rw [hget, if_neg heq, hc], hctop⟩
  · exact fun who p hp => ⟨p, hp⟩

theorem unlink (parent child : ChannelId) : Quiet registry (registry.unlink parent child) := by
  have hrelease : Quiet registry (registry.withChange parent (Channel.release child)) :=
    withChange (fun _ _ => rfl) (fun _ _ => rfl) fun _ _ h => h
  exact hrelease.trans (withChange (fun _ _ => rfl) (fun _ _ => rfl) fun _ _ _ => rfl)

theorem free (child : ChannelId) : Quiet registry (registry.free child) := by
  unfold Registry.free
  split
  · exact unlink _ _
  · exact refl registry

/-- A new channel has no records. -/
theorem withChannel {id : ChannelId} (hfree : registry.channels.get? id = none) (info : Metadata) :
    Quiet registry (registry.withChannel id info) := by
  have hget := get?_withChannel hfree info
  constructor
  · intro id'
    rw [recordsOf, recordsOf, hget]
    by_cases heq : id' = id
    · rw [if_pos heq, heq, hfree]
    · rw [if_neg heq]
  · intro id' h
    obtain ⟨c, hc, htop⟩ := h
    have hne : id' ≠ id := by
      rintro rfl
      rw [hfree] at hc
      cases hc
    exact ⟨c, by rw [hget, if_neg hne, hc], htop⟩
  · exact fun who p hp => ⟨p, hp⟩

theorem crown (id : ChannelId) : Quiet registry (registry.crown id) := by
  have hcrown (registry : Registry) : Quiet registry (registry.withChange id Channel.crown) :=
    withChange (fun _ _ => rfl) (fun _ _ => rfl) fun _ _ h => h
  unfold Registry.crown
  split
  · rename_i former _
    split
    · exact refl registry
    · have hresign : Quiet registry (registry.withChange former.id Channel.resignDefault) :=
        withChange (fun _ _ => rfl) (fun _ _ => rfl) fun _ _ h => h
      exact hresign.trans (hcrown _)
  · exact hcrown registry

theorem edit {id : ChannelId} {f : Channel → Channel} {c : Channel}
    (hfound : registry.channels.get? id = some c) (hedited : c.Edited (f c)) :
    Quiet registry (registry.withChange id f) := by
  have honly {d : Channel} (hd : registry.channels.get? id = some d) : d = c := by
    rw [hfound] at hd
    exact (Option.some.inj hd).symm
  refine withChange (fun d hd => ?_) (fun d hd => ?_) fun d hd htop => ?_
  · rw [honly hd, hedited.id]
  · rw [honly hd, hedited.records]
  · rw [honly hd] at htop ⊢
    rw [hedited.parent, htop]

/-! ### Players and bans -/

theorem withPlayer (player : Player) : Quiet registry (registry.withPlayer player) :=
  of_channels rfl fun _ p hp => ⟨p, by rw [get?_withPlayer, hp, Option.some_or]⟩

/-- Wherever a player goes, the player is still there. -/
theorem goTo (who : PlayerId) (place : Option ChannelId) :
    Quiet registry { registry with
      players := registry.players.modify who (Player.goTo place) } :=
  of_channels rfl fun _ _ hp =>
    Slots.exists_get?_modify who (Player.goTo place) (fun _ => rfl) hp

theorem seat (target : ChannelId) (who : PlayerId) : Quiet registry (registry.seat target who) := by
  have hreceive : Quiet registry (registry.withChange target (Channel.receive who)) := by
    refine withChange (fun c _ => ?_) (fun c _ => ?_) fun c _ htop => ?_
    · rw [Channel.receive_eq]
    · rw [Channel.receive_eq]
    · rw [Channel.receive_eq, htop]
  exact hreceive.trans (goTo who (some target))

theorem quit (who : PlayerId) (p : Player) : Quiet registry (registry.quit who p) := by
  have hunseat : Quiet registry (registry.unseat who p) := by
    unfold Registry.unseat
    split
    · exact withChange (fun _ _ => rfl) (fun _ _ => rfl) fun _ _ h => h
    · exact refl registry
  have hplayers : registry.quit who p =
      { registry.unseat who p with
        players := (registry.unseat who p).players.modify who (Player.goTo none) } := by
    rw [Registry.quit, players_unseat]
  rw [hplayers]
  exact hunseat.trans (goTo who none)

/-! ### Quiet ways -/

theorem of_change {way : Way} (hquiet : way ∈ quietWays) (h : Change registry way registry') :
    Quiet registry registry' := by
  cases h with
  | add hadd => exact withChannel hadd.free _
  | unlink _ => exact unlink _ _
  | crown _ => exact crown _
  | edit found edited => exact edit found edited
  | arrive _ _ _ => exact withPlayer _
  | seat _ => exact seat _ _
  | quit _ => exact quit _ _
  | ban _ _ => exact of_channels rfl fun _ p hp => ⟨p, hp⟩
  | unban => exact of_channels rfl fun _ p hp => ⟨p, hp⟩
  | _ => exact absurd hquiet (by decide)

end Quiet

/-- An operation that only takes quiet ways leaves the ledger alone. -/
theorem ledger_step_of_quiet {store : Store} {session : Session} {operation : Operation}
    (hquiet : operation.ways ⊆ quietWays) :
    (session.step store operation).2.registry.ledger = session.registry.ledger :=
  (Session.step_relates Quiet.refl (fun _ _ _ => .trans)
    fun _ _ _ hway hchange => .of_change (hquiet hway) hchange).ledger

/-! ## Changes of the ledger -/

theorem recordsOf_setRights {id id' : ChannelId} {identity : Identity} {rights : Rights}
    (hne : id' ≠ id) :
    (registry.withChange id (Channel.setRights identity rights)).recordsOf id' =
      registry.recordsOf id' := by
  rw [recordsOf, recordsOf, get?_withChange _ _ fun _ _ => Channel.id_setRights _ _, if_neg hne]

theorem ledger_setRights {id : ChannelId} {c : Channel}
    (hfound : registry.channels.get? id = some c) (identity : Identity) (rights : Rights) :
    (registry.withChange id (Channel.setRights identity rights)).ledger =
      registry.ledger.set id identity rights := by
  funext id' who
  by_cases heq : id' = id
  · subst heq
    rw [ledger_of_found (get?_setRights hfound), Channel.rights?_setRights, Ledger.set,
      ledger_of_found hfound]
    by_cases hwho : who = identity
    · rw [if_pos hwho, if_pos ⟨rfl, hwho⟩]
    · rw [if_neg hwho, if_neg fun h => hwho h.2]
  · rw [Ledger.set, if_neg fun h => heq h.1, ledger, ledger, recordsOf_setRights heq]

theorem recordsOf_graft {parent child : ChannelId} (hne : parent ≠ child) (id : ChannelId) :
    (registry.graft parent child).recordsOf id =
      if id = child then [] else registry.recordsOf id := by
  have hfree := (@Quiet.free registry child).records id
  rw [recordsOf] at hfree
  rw [recordsOf, graft, get?_link _ hne]
  by_cases hchild : id = child
  · rw [if_pos hchild, if_pos hchild]
    cases (registry.free child).channels.get? id <;> rfl
  · rw [if_neg hchild, if_neg hchild, ← hfree]
    by_cases hparent : id = parent
    · rw [if_pos hparent]
      cases (registry.free child).channels.get? id <;> rfl
    · rw [if_neg hparent]

theorem ledger_graft {parent child : ChannelId} (hne : parent ≠ child) :
    (registry.graft parent child).ledger = registry.ledger.clear child := by
  funext id who
  rw [ledger, recordsOf_graft hne, Ledger.clear]
  by_cases hchild : id = child
  · rw [if_pos hchild, if_pos hchild]
    rfl
  · rw [if_neg hchild, if_neg hchild]
    rfl

theorem recordsOf_remove (hids : registry.channels.ids.Nodup) (id : ChannelId) (c : Channel)
    (id' : ChannelId) :
    (registry.remove id c).recordsOf id' = if id' = id then [] else registry.recordsOf id' := by
  rw [recordsOf, get?_remove hids]
  by_cases heq : id' = id
  · rw [if_pos heq, if_pos heq]
  · rw [if_neg heq, if_neg heq, recordsOf]
    split_ifs
    · cases registry.channels.get? id' <;> rfl
    · rfl

theorem ledger_remove (hids : registry.channels.ids.Nodup) (id : ChannelId) (c : Channel) :
    (registry.remove id c).ledger = registry.ledger.clear id := by
  funext id' who
  rw [ledger, recordsOf_remove hids, Ledger.clear]
  by_cases heq : id' = id
  · rw [if_pos heq, if_pos heq]
    rfl
  · rw [if_neg heq, if_neg heq]
    rfl

theorem recordsOf_withoutPlayer (who : PlayerId) (id : ChannelId) :
    (registry.withoutPlayer who).recordsOf id =
      (registry.recordsOf id).filter (·.identity ≠ .unregistered who) := by
  rw [recordsOf, recordsOf, get?_withoutPlayer]
  cases registry.channels.get? id <;> rfl

theorem ledger_withoutPlayer (who : PlayerId) :
    (registry.withoutPlayer who).ledger = registry.ledger.forget (.unregistered who) := by
  funext id identity
  rw [ledger, recordsOf_withoutPlayer, Ledger.forget]
  by_cases heq : identity = .unregistered who
  · have hnone : ((registry.recordsOf id).filter (·.identity ≠ .unregistered who)).find?
        (·.identity = identity) = none := by
      refine List.find?_eq_none.mpr fun record hrecord hwho => ?_
      have hother := of_decide_eq_true (List.mem_filter.mp hrecord).2
      exact hother ((of_decide_eq_true hwho).trans heq)
    rw [if_pos heq, hnone, Option.map_none]
  · have hsame : ((registry.recordsOf id).filter (·.identity ≠ .unregistered who)).find?
        (·.identity = identity) = (registry.recordsOf id).find? (·.identity = identity) := by
      rw [List.find?_filter]
      congr 1
      funext record
      by_cases hrecord : record.identity = identity
      · simp [hrecord, heq]
      · simp [hrecord]
    rw [if_neg heq, hsame]
    rfl

end Registry

end ChannelServer
