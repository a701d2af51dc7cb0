import ChannelServer.Proofs.Effect.Channels

/-!
# What the operations on players and bans do

A player joins a channel in two places, the list of the channel and the note of the player.  `seat`
does both; for a player who is in the list already, the list stays.  Moving is leaving and then
taking the seat: what the player notes in between is overwritten.
-/

namespace ChannelServer

namespace Channel

/-- The channel with a player among its members, at the end if the player is new. -/
def receive (who : PlayerId) (channel : Channel) : Channel :=
  if who ∈ channel.members then channel
  else { channel with members := channel.members ++ [who] }

/-- To receive a player changes the members and nothing else. -/
theorem receive_eq (who : PlayerId) (c : Channel) :
    c.receive who = { c with members := (c.receive who).members } := by
  unfold receive
  split <;> rfl

theorem mem_receive {c : Channel} {who other : PlayerId} :
    other ∈ (c.receive who).members ↔ other ∈ c.members ∨ other = who := by
  unfold receive
  split
  · exact ⟨.inl, fun hother => hother.elim (fun h => h) fun heq => heq ▸ ‹_›⟩
  · rw [List.mem_append, List.mem_singleton]

end Channel

/-- The player in another place. -/
def Player.goTo (place : Option ChannelId) (player : Player) : Player :=
  { player with channel := place }

namespace Registry

variable {registry : Registry}

/-! ## Players come and go -/

/-- The player that a newcomer becomes. -/
def arrival (id : PlayerId) (newcomer : Newcomer) (secret : UInt32) : Player :=
  { id, secret, name := newcomer.name, machine := newcomer.machine, account := newcomer.account
    flags := newcomer.flags }

/-- The registry with a new player at the end. -/
def withPlayer (player : Player) (registry : Registry) : Registry :=
  { registry with players := registry.players.append player }

theorem get?_withPlayer (player : Player) (who : PlayerId) :
    (registry.withPlayer player).players.get? who =
      (registry.players.get? who).or (if player.id = who then some player else none) :=
  Slots.get?_append _ _ _

/-- With a free id and a free slot, a player who is added is new and in no channel. -/
theorem addPlayer_allOrNothing {id : PlayerId} (hnext : registry.players.Next id)
    (newcomer : Newcomer) (secret : UInt32) :
    AllOrNothing (addPlayer newcomer secret) registry
      (registry.players.entries.length < registry.players.capacity) id
      (registry.withPlayer (arrival id newcomer secret)) := by
  have hfree : smallestFree? (registry.players.entries.map (·.id.value.toNat)) maxPlayerId =
      some (Numbered.number id) := hnext.smallestFree?
  have hid : (⟨UInt32.ofNat (Numbered.number id)⟩ : PlayerId) = id := Numbered.ofNumber_number id
  refine .of_slot ?_
  simp only [addPlayer, bind_apply, get_apply, hfree, hid, ask_apply, Slots.insert_eq]
  cases registry.players.isFull <;> rfl

theorem addPlayer_of_exhausted (h : registry.players.Exhausted) (newcomer : Newcomer)
    (secret : UInt32) : Refused (addPlayer newcomer secret) registry := by
  have hfree : smallestFree? (registry.players.entries.map (·.id.value.toNat)) maxPlayerId =
      none := h.smallestFree?
  exact ⟨.slotsFull registry.players.capacity, by simp [addPlayer, hfree]⟩

theorem addPlayer_givesNext (newcomer : Newcomer) (secret : UInt32) :
    GivesNext (addPlayer newcomer secret) registry registry.players
      (fun _ => registry.players.entries.length < registry.players.capacity)
      (fun id => registry.withPlayer (arrival id newcomer secret)) where
  next hnext := addPlayer_allOrNothing hnext newcomer secret
  exhausted hexhausted := addPlayer_of_exhausted hexhausted newcomer secret

/-- The registry without a player and without the records of the player's session. -/
def withoutPlayer (id : PlayerId) (registry : Registry) : Registry :=
  { registry with
    players := registry.players.erase id
    channels := registry.channels.map (forget id) }

theorem get?_withoutPlayer (who : PlayerId) (id : ChannelId) :
    (registry.withoutPlayer who).channels.get? id =
      (registry.channels.get? id).map (forget who) :=
  Slots.get?_map _ _ (forget who) fun _ => rfl

theorem removePlayer_of_found {id : PlayerId} {player : Player}
    (h : registry.players.get? id = some player) :
    removePlayer id registry = .ok (some player) (registry.withoutPlayer id) := by
  simp [removePlayer, h, withoutPlayer]

theorem removePlayer_of_missing {id : PlayerId} (h : registry.players.get? id = none) :
    removePlayer id registry = .ok none registry := by
  simp [removePlayer, h]

/-! ## Bans -/

/-- The registry with a new ban at the end. -/
def withBan (ban : Ban) (registry : Registry) : Registry :=
  { registry with bans := registry.bans.append ban }

theorem addBan_allOrNothing {id : BanId} (hnext : registry.bans.Next id) (ban : NewBan) :
    AllOrNothing (addBan ban) registry
      (registry.bans.entries.length < registry.bans.capacity) id
      (registry.withBan { ban with id }) := by
  have hfree : smallestFree? (registry.bans.entries.map (·.id.value.toNat)) maxBans =
      some (Numbered.number id) := hnext.smallestFree?
  have hid : (⟨UInt16.ofNat (Numbered.number id)⟩ : BanId) = id := Numbered.ofNumber_number id
  refine .of_slot ?_
  simp only [addBan, bind_apply, get_apply, hfree, hid, ask_apply, Slots.insert_eq]
  cases registry.bans.isFull <;> rfl

theorem addBan_of_exhausted (h : registry.bans.Exhausted) (ban : NewBan) :
    Refused (addBan ban) registry := by
  have hfree : smallestFree? (registry.bans.entries.map (·.id.value.toNat)) maxBans = none :=
    h.smallestFree?
  exact ⟨.slotsFull registry.bans.capacity, by simp [addBan, hfree]⟩

theorem addBan_givesNext (ban : NewBan) :
    GivesNext (addBan ban) registry registry.bans
      (fun _ => registry.bans.entries.length < registry.bans.capacity)
      (fun id => registry.withBan { ban with id }) where
  next hnext := addBan_allOrNothing hnext ban
  exhausted hexhausted := addBan_of_exhausted hexhausted ban

/-- The registry without a ban. -/
def withoutBan (id : BanId) (registry : Registry) : Registry :=
  { registry with bans := registry.bans.erase id }

theorem removeBan_apply (id : BanId) :
    removeBan id registry = .ok (registry.bans.get? id) (registry.withoutBan id) := by
  simp [removeBan, withoutBan]

/-! ## Membership -/

/-- The registry with a player in a channel, in the list of the channel and in the note of the
player. -/
def seat (target : ChannelId) (who : PlayerId) (registry : Registry) : Registry :=
  { registry with
    channels := registry.channels.modify target (Channel.receive who)
    players := registry.players.modify who (Player.goTo (some target)) }

/-- A player is in the list of a channel already or the channel is not full. -/
structure Seatable (registry : Registry) (target : ChannelId) (who : PlayerId) (c : Channel)
    (p : Player) : Prop where
  known : registry.players.get? who = some p
  found : registry.channels.get? target = some c
  room : who ∈ c.members ∨ registry.isFull target = .ok false

theorem updatePlayer_ok {who : PlayerId} {p : Player} (f : Player → Player)
    (h : registry.players.get? who = some p) :
    updatePlayer who f registry =
      .ok () { registry with players := registry.players.modify who f } := by
  simp [updatePlayer, player_eq_ok.mpr h]

private theorem join_eq (target : ChannelId) (who : PlayerId) : join target who = (do
    let _ ← ask (·.player who)
    let channel ← ask (·.channel target)
    if who ∈ channel.members then updatePlayer who (Player.goTo (some target))
    else do
      let full ← ask (·.isFull target)
      require (!full) (.channelFull target channel.info.capacity.toWord)
      updateChannel target fun channel => { channel with members := channel.members ++ [who] }
      updatePlayer who (Player.goTo (some target))) := rfl

theorem join_allOrNothing (target : ChannelId) (who : PlayerId) :
    AllOrNothing (join target who) registry (∃ c p, Seatable registry target who c p) ()
      (registry.seat target who) := by
  rw [join_eq]
  constructor
  · rintro ⟨c, p, h⟩
    have hreceive : registry.channels.modify target (Channel.receive who) =
        if who ∈ c.members then registry.channels
        else registry.channels.modify target fun channel =>
          { channel with members := channel.members ++ [who] } := by
      split
      · rename_i hmem
        apply Slots.modify_eq_self
        intro c' hc'
        rw [h.found] at hc'
        cases hc'
        exact if_pos hmem
      · rename_i hmem
        apply Slots.modify_congr
        intro c' hc'
        rw [h.found] at hc'
        cases hc'
        exact if_neg hmem
    simp only [bind_apply, ask_apply, player_eq_ok.mpr h.known, channel_eq_ok.mpr h.found, seat,
      hreceive]
    split
    · exact updatePlayer_ok _ h.known
    · rename_i hmem
      have hroom := h.room.resolve_left hmem
      simp only [bind_apply, ask_apply, hroom, require_apply, Bool.not_false, if_true,
        updateChannel_ok _ h.found]
      exact updatePlayer_ok _ h.known
  · intro h
    refine .ask_bind fun p hp => .ask_bind fun c hc => ?_
    rw [player_eq_ok] at hp
    rw [channel_eq_ok] at hc
    split
    · rename_i hmem
      exact absurd ⟨c, p, hp, hc, .inl hmem⟩ h
    · refine .ask_bind fun full hfull => .require_bind fun hroom => ?_
      rw [Bool.not_eq_true'] at hroom
      exact absurd ⟨c, p, hp, hc, .inr (hroom ▸ hfull)⟩ h

/-- The registry without a player in the list of the channel that the player notes. -/
def unseat (who : PlayerId) (p : Player) (registry : Registry) : Registry :=
  match p.channel with
  | some former => registry.withChange former (dropMember who)
  | none => registry

/-- The registry after a player, who is `p`, left the channel where the player was. -/
def quit (who : PlayerId) (p : Player) (registry : Registry) : Registry :=
  { registry.unseat who p with players := registry.players.modify who (Player.goTo none) }

theorem players_unseat (who : PlayerId) (p : Player) :
    (registry.unseat who p).players = registry.players := by
  unfold unseat
  split <;> rfl

theorem leave_of_known {who : PlayerId} {p : Player} (h : registry.players.get? who = some p) :
    leave who registry = .ok p.channel (registry.quit who p) := by
  have hleave : leave who = (do
      let player ← ask (·.player who)
      updatePlayer who (Player.goTo none)
      match player.channel with
      | some former => modifyChannel former (dropMember who)
      | none => pure ()
      return player.channel) := rfl
  rw [hleave]
  simp only [bind_apply, ask_apply, player_eq_ok.mpr h, updatePlayer_ok _ h, quit, unseat]
  cases p.channel <;> rfl

theorem leave_of_unknown {who : PlayerId} (h : registry.players.get? who = none) :
    Refused (leave who) registry :=
  .ask_bind fun p hp => by
    rw [player_eq_ok, h] at hp
    cases hp

/-! ### Moving -/

section Moving

variable {who : PlayerId} {target : ChannelId} {p : Player} {c : Channel}

/-- Whoever leaves another channel leaves the target as it is. -/
theorem get?_unseat (h : p.channel ≠ some target) :
    (registry.unseat who p).channels.get? target = registry.channels.get? target := by
  unfold unseat
  split
  · rename_i former hformer
    have hne : target ≠ former := fun heq => h (heq ▸ hformer)
    exact (get?_withChange former (dropMember who) (fun _ _ => rfl) target).trans (if_neg hne)
  · rfl

theorem effectiveFlags_unseat (id : ChannelId) :
    (registry.unseat who p).effectiveFlags id = registry.effectiveFlags id := by
  unfold unseat
  split
  · rename_i former hformer
    refine effectiveFlags_congr (fun id => ?_) id
    rw [get?_withChange former (dropMember who) fun _ _ => rfl]
    split
    · rw [Option.map_map]
      rfl
    · rfl
  · rfl

theorem isFull_unseat (h : p.channel ≠ some target) :
    (registry.unseat who p).isFull target = registry.isFull target := by
  simp only [isFull, effectiveFlags_unseat, channel, get?_unseat h]

theorem seatable_unseat (hp : registry.players.get? who = some p)
    (hc : registry.channels.get? target = some c) (hne : p.channel ≠ some target)
    (hroom : registry.isFull target = .ok false) :
    Seatable (registry.unseat who p) target who c p where
  known := by rw [players_unseat, hp]
  found := by rw [get?_unseat hne, hc]
  room := .inr (by rw [isFull_unseat hne, hroom])

/-- What the player notes in between does not matter to who takes a seat. -/
theorem seat_unseat :
    (registry.unseat who p).seat target who = (registry.quit who p).seat target who := by
  simp only [seat, quit, players_unseat]
  rw [Slots.modify_modify _ _ (Player.goTo none) _ fun _ => rfl]
  rfl

theorem seatable_quit (hp : registry.players.get? who = some p)
    (hc : registry.channels.get? target = some c) (hne : p.channel ≠ some target)
    (hroom : registry.isFull target = .ok false) :
    Seatable (registry.quit who p) target who c (p.goTo none) where
  known := by
    have hplayers : (registry.quit who p).players =
        registry.players.modify who (Player.goTo none) := rfl
    rw [hplayers, Slots.get?_modify _ _ _ (Player.goTo none) fun _ => rfl, if_pos rfl, hp,
      Option.map_some]
  found := (seatable_unseat hp hc hne hroom).found
  room := .inr ((isFull_unseat hne).trans hroom)

private theorem move_eq (who : PlayerId) (target : ChannelId) : move who target = (do
    let player ← ask (·.player who)
    let channel ← ask (·.channel target)
    if player.channel = some target then pure () else do
      let full ← ask (·.isFull target)
      require (!full) (.channelFull target channel.info.capacity.toWord)
      match player.channel with
      | some former => modifyChannel former (dropMember who)
      | none => pure ()
      join target who) := rfl

/-- Nothing happens if the player is there already. -/
theorem move_of_there (hp : registry.players.get? who = some p)
    (hc : registry.channels.get? target = some c) (hthere : p.channel = some target) :
    move who target registry = .ok () registry := by
  simp [move_eq, player_eq_ok.mpr hp, channel_eq_ok.mpr hc, hthere]

theorem move_allOrNothing (hp : registry.players.get? who = some p)
    (hc : registry.channels.get? target = some c) (hne : p.channel ≠ some target) :
    AllOrNothing (move who target) registry (registry.isFull target = .ok false) ()
      ((registry.quit who p).seat target who) := by
  rw [move_eq]
  constructor
  · intro hroom
    have hjoin := (join_allOrNothing target who).ok ⟨c, p, seatable_unseat hp hc hne hroom⟩
    rw [seat_unseat] at hjoin
    simp only [bind_apply, ask_apply, player_eq_ok.mpr hp, channel_eq_ok.mpr hc, hne, if_false,
      hroom, require_apply, Bool.not_false, if_true]
    cases hformer : p.channel with
    | none => simpa only [unseat, hformer, pure_apply, bind_apply] using hjoin
    | some former =>
        simpa only [unseat, hformer, modifyChannel, modify_apply, bind_apply, withChange]
          using hjoin
  · intro h
    refine .ask_bind fun p' hp' => .ask_bind fun c' hc' => ?_
    rw [player_eq_ok, hp] at hp'
    cases hp'
    rw [if_neg hne]
    refine .ask_bind fun full hfull => .require_bind fun hroom => ?_
    rw [Bool.not_eq_true'] at hroom
    exact absurd (hroom ▸ hfull) h

theorem move_refused
    (h : registry.players.get? who = none ∨ registry.channels.get? target = none) :
    Refused (move who target) registry := by
  rw [move_eq]
  refine .ask_bind fun p hp => .ask_bind fun c hc => ?_
  rw [player_eq_ok] at hp
  rw [channel_eq_ok] at hc
  rcases h with hnone | hnone
  · rw [hnone] at hp
    cases hp
  · rw [hnone] at hc
    cases hc

end Moving

end Registry

end ChannelServer
