import ChannelServer.Proofs.Ledger.Refinement

/-!
# Who is where

A channel lists its members, a player notes the channel where it is, and a record names the player
whom it is about if that player has no account.  All these are ids, and ids are given out again as
soon as they are free.  So nothing may be left of a player who is gone, or the next player with the
id would sit in a channel and have rights there; and nothing may refer to a channel that is gone.

`Seated` says that all members are there, and that a channel lists whoever notes it.  A player may
be on the lists of several channels, since `join` does not give up the channel of before.

## Main results

* `Seated.change`: every change keeps members and players together.
* `presence_of_reachable`: no reference leads nowhere, and new players and channels begin with
  nothing.
-/

namespace ChannelServer

/-- Members come and go in three ways, and otherwise stay who they are. -/
theorem Channel.members_of_turn {c c' : Channel} {way : Registry.Way} (h : Turn way c c')
    (hway : way ∉ [.seat, .quit, .depart]) : c'.members = c.members := by
  cases h with
  | edit edited => exact edited.members
  | setRights _ _ _ => rw [setRights_eq]
  | forget _ _ => exact absurd (by decide) hway
  | receive _ _ _ => exact absurd (by decide) hway
  | dropMember _ _ => exact absurd (by decide) hway
  | _ => rfl

/-- Whoever joins a channel is put on the list once. -/
theorem Channel.nodup_of_turn {c c' : Channel} {way : Registry.Way} (h : Turn way c c')
    (hnodup : c.members.Nodup) : c'.members.Nodup := by
  cases h with
  | edit edited => exact edited.members ▸ hnodup
  | setRights _ _ _ =>
      rw [setRights_eq]
      exact hnodup
  | forget _ who => exact hnodup.filter _
  | receive _ who _ =>
      unfold receive
      split
      · exact hnodup
      · rename_i hnew
        refine List.nodup_append.mpr ⟨hnodup, List.nodup_singleton who, fun a ha b hb heq => ?_⟩
        rw [heq, List.mem_singleton.mp hb] at ha
        exact hnew ha
  | dropMember _ who => exact hnodup.filter _
  | _ => exact hnodup

/-- Nobody is in the channel, and there are no records. -/
def Channel.Blank (c : Channel) : Prop := c.members = [] ∧ c.records = []

/-- Where channels are added, blank channels stay blank. -/
theorem Channel.Blank.turn {c c' : Channel} (hblank : c.Blank) {way : Registry.Way}
    (h : Turn way c c') (hway : way ∈ Registry.importing) : c'.Blank := by
  cases h with
  | sink _ _ _ => exact ⟨hblank.1, rfl⟩
  | release _ _ _ => exact hblank
  | adopt _ _ => exact hblank
  | rise _ _ => exact hblank
  | _ => exact absurd hway (by decide)

namespace Registry

variable {registry registry' : Registry}

/-- Channels are added blank and stay so; of those from before, none gets members or records. -/
def Grows (registry registry' : Registry) : Prop :=
  ∀ id c', registry'.channels.get? id = some c' →
    c'.Blank ∨ ∃ c, registry.channels.get? id = some c ∧ (c.Blank → c'.Blank)

theorem Grows.refl (registry : Registry) : Grows registry registry :=
  fun _ c hc => .inr ⟨c, hc, fun h => h⟩

theorem Grows.trans {registry'' : Registry} (h : Grows registry registry')
    (h' : Grows registry' registry'') : Grows registry registry'' := by
  intro id c'' hc''
  rcases h' id c'' hc'' with hblank | ⟨c', hc', hstays'⟩
  · exact .inl hblank
  · rcases h id c' hc' with hblank | ⟨c, hc, hstays⟩
    · exact .inl (hstays' hblank)
    · exact .inr ⟨c, hc, fun hblank => hstays' (hstays hblank)⟩

theorem Grows.of_change (hforest : Forest registry) {way : Way}
    (hchange : Change registry way registry') (hway : way ∈ importing) :
    Grows registry registry' := by
  intro id c' hc'
  have hfate := fate_of_change hforest hchange id
  rw [hc'] at hfate
  generalize registry.channels.get? id = found at hfate ⊢
  cases hfate with
  | turned hturns =>
      exact .inr ⟨_, rfl, hturns.keeps fun _ _ hturn hblank => hblank.turn hturn hway⟩
  | added => exact .inl ⟨rfl, rfl⟩

/-- Nobody is on the list of a channel twice. -/
def ListedOnce (registry : Registry) : Prop :=
  ∀ id c, registry.channels.get? id = some c → c.members.Nodup

theorem ListedOnce.change (h : ListedOnce registry) (hforest : Forest registry) {way : Way}
    (hchange : Change registry way registry') : ListedOnce registry' := by
  intro id c' hc'
  have hfate := fate_of_change hforest hchange id
  rw [hc'] at hfate
  cases hc : registry.channels.get? id with
  | none =>
      rw [hc] at hfate
      cases hfate
      exact List.nodup_nil
  | some c =>
      rw [hc] at hfate
      cases hfate with
      | turned hturns =>
          exact hturns.keeps (fun _ _ hturn => Channel.nodup_of_turn hturn) (h id c hc)

/-! ## Changes that nobody notices -/

theorem players_of_change {way : Way} (hchange : Change registry way registry')
    (hway : way ∈ [.unlink, .graft, .crown, .edit, .setRights, .ban, .unban]) :
    registry'.players = registry.players := by
  cases hchange with
  | graft hattach =>
      unfold graft free
      split <;> rfl
  | crown _ =>
      unfold crown
      split
      · split <;> rfl
      · rfl
  | add _ => exact absurd hway (by decide)
  | remove _ _ => exact absurd hway (by decide)
  | arrive _ _ _ => exact absurd hway (by decide)
  | depart _ => exact absurd hway (by decide)
  | seat _ => exact absurd hway (by decide)
  | quit _ => exact absurd hway (by decide)
  | _ => rfl

theorem members_of_change (hforest : Forest registry) {way : Way}
    (hchange : Change registry way registry')
    (hway : way ∈ [.unlink, .graft, .crown, .edit, .setRights, .ban, .unban]) (id : ChannelId) :
    (registry'.channels.get? id).map Channel.members =
      (registry.channels.get? id).map Channel.members := by
  have hfate := fate_of_change hforest hchange id
  generalize registry.channels.get? id = found at hfate ⊢
  generalize registry'.channels.get? id = found' at hfate ⊢
  cases hfate with
  | missing => rfl
  | turned hturns =>
      have hother : way ∉ [.seat, .quit, .depart] := fun hother => by
        simp only [List.mem_cons, List.not_mem_nil, or_false] at hway hother
        rcases hother with rfl | rfl | rfl <;> simp at hway
      have hmembers := hturns.same fun _ _ hturn => Channel.members_of_turn hturn hother
      rw [Option.map_some, Option.map_some, hmembers]
  | added => exact absurd hway (by decide)
  | removed => exact absurd hway (by decide)

/-! ## Lists before a change -/

/-- A channel that is added lists nobody. -/
theorem before_withChannel {id : ChannelId} {info : Metadata}
    (hfree : registry.channels.get? id = none) {id' : ChannelId} {c : Channel}
    (hc : (registry.withChannel id info).channels.get? id' = some c) :
    c.members = [] ∨ registry.channels.get? id' = some c := by
  rw [get?_withChannel hfree info] at hc
  split at hc
  · cases hc
    exact .inl rfl
  · exact .inr hc

/-- What is left when a channel is destroyed are other channels, with the members from before. -/
theorem before_remove (hids : registry.channels.ids.Nodup) {id id' : ChannelId} {c d' : Channel}
    (hd' : (registry.remove id c).channels.get? id' = some d') :
    id' ≠ id ∧ ∃ d, registry.channels.get? id' = some d ∧ d'.members = d.members := by
  rw [get?_remove hids id c] at hd'
  split at hd'
  · cases hd'
  · rename_i hne
    split at hd'
    · obtain ⟨d, hd, rfl⟩ := Option.map_eq_some_iff.mp hd'
      exact ⟨hne, d, hd, rfl⟩
    · exact ⟨hne, d', hd', rfl⟩

theorem get?_goTo (who other : PlayerId) (place : Option ChannelId) (players : Slots Player) :
    (players.modify who (Player.goTo place)).get? other =
      if other = who then (players.get? other).map (Player.goTo place) else players.get? other :=
  Slots.get?_modify _ _ _ (Player.goTo place) fun _ => rfl

/-- Channels and players agree on who is where. -/
structure Seated (registry : Registry) : Prop where
  /-- No two players have the same id. -/
  distinct : registry.players.ids.Nodup
  /-- Whoever is listed is there. -/
  known : ∀ {id c}, registry.channels.get? id = some c → ∀ who ∈ c.members,
    ∃ p, registry.players.get? who = some p
  /-- Where a player notes to be, the player is listed. -/
  listed : ∀ {who p}, registry.players.get? who = some p → ∀ id, p.channel = some id →
    ∃ c, registry.channels.get? id = some c ∧ who ∈ c.members

namespace Seated

theorem empty (limits : Limits) : Seated (.empty limits) := by
  constructor <;> simp [Registry.empty, Slots.ids, Slots.get?]

/-! ## Changes of channels -/

/-- If the players stay, and every channel keeps its members, nothing happens. -/
theorem of_same_members (h : Seated registry) (hplayers : registry'.players = registry.players)
    (hmembers : ∀ id, (registry'.channels.get? id).map Channel.members =
      (registry.channels.get? id).map Channel.members) : Seated registry' := by
  have hbefore {id : ChannelId} {c' : Channel} (hc' : registry'.channels.get? id = some c') :
      ∃ c, registry.channels.get? id = some c ∧ c.members = c'.members := by
    have hid := hmembers id
    rw [hc', Option.map_some, eq_comm, Option.map_eq_some_iff] at hid
    exact hid
  have hafter {id : ChannelId} {c : Channel} (hc : registry.channels.get? id = some c) :
      ∃ c', registry'.channels.get? id = some c' ∧ c'.members = c.members := by
    have hid := hmembers id
    rw [hc, Option.map_some, Option.map_eq_some_iff] at hid
    exact hid
  constructor
  · rw [hplayers]
    exact h.distinct
  · intro id c' hc' who hwho
    obtain ⟨c, hc, heq⟩ := hbefore hc'
    rw [hplayers]
    exact h.known hc who (heq ▸ hwho)
  · intro who p hp id hid
    rw [hplayers] at hp
    obtain ⟨c, hc, hwho⟩ := h.listed hp id hid
    obtain ⟨c', hc', heq⟩ := hafter hc
    exact ⟨c', hc', heq ▸ hwho⟩

/-- A change that is about neither players nor members. -/
theorem of_change (h : Seated registry) (hforest : Forest registry) {way : Way}
    (hchange : Change registry way registry')
    (hway : way ∈ [.unlink, .graft, .crown, .edit, .setRights, .ban, .unban]) :
    Seated registry' :=
  h.of_same_members (players_of_change hchange hway) (members_of_change hforest hchange hway)

theorem withChannel (h : Seated registry) {id : ChannelId} {info : Metadata}
    (hfree : registry.channels.get? id = none) : Seated (registry.withChannel id info) := by
  have hget := get?_withChannel hfree info
  constructor
  · exact h.distinct
  · intro id' c hc who hwho
    rcases before_withChannel hfree hc with hnone | hold
    · rw [hnone] at hwho
      cases hwho
    · exact h.known hold who hwho
  · intro who p hp id' hplace
    obtain ⟨c, hc, hwho⟩ := h.listed hp id' hplace
    have hne : id' ≠ id := by
      rintro rfl
      rw [hfree] at hc
      cases hc
    exact ⟨c, by rw [hget, if_neg hne, hc], hwho⟩

/-- The members of a channel that is destroyed note no channel, unless they went elsewhere. -/
theorem remove (h : Seated registry) (hids : registry.channels.ids.Nodup) {id : ChannelId}
    {c : Channel} (hc : registry.channels.get? id = some c) : Seated (registry.remove id c) := by
  have hget := get?_remove hids id c
  have hvacate := get?_vacate id c.members registry.players
  constructor
  · have hsame : (registry.remove id c).players.ids = registry.players.ids := ids_vacate _ _ _
    rw [hsame]
    exact h.distinct
  · intro id' d' hd' who hwho
    obtain ⟨-, d, hd, heq⟩ := before_remove hids hd'
    obtain ⟨p, hp⟩ := h.known hd who (heq ▸ hwho)
    exact ⟨_, (hvacate who).trans (by rw [hp, Option.map_some])⟩
  · intro who p' hp' id' hplace
    obtain ⟨p, hp, heq⟩ := Option.map_eq_some_iff.mp ((hvacate who).symm.trans hp')
    split at heq
    · subst heq
      cases hplace
    · rename_i hstays
      subst heq
      obtain ⟨d, hd, hwho⟩ := h.listed hp id' hplace
      have hne : id' ≠ id := by
        rintro rfl
        rw [hc] at hd
        cases hd
        exact hstays ⟨hwho, hplace⟩
      by_cases hlisted : id' ∈ c.subchannels
      · exact ⟨d.rise, by rw [hget, if_neg hne, if_pos hlisted, hd, Option.map_some], hwho⟩
      · exact ⟨d, by rw [hget, if_neg hne, if_neg hlisted, hd], hwho⟩

/-! ## Changes of players -/

/-- A newcomer is in no channel. -/
theorem withPlayer (h : Seated registry) {player : Player}
    (hfresh : registry.players.get? player.id = none) (hnowhere : player.channel = none) :
    Seated (registry.withPlayer player) := by
  constructor
  · exact Slots.nodup_ids_append h.distinct hfresh
  · intro id c hc who hwho
    obtain ⟨p, hp⟩ := h.known hc who hwho
    exact ⟨p, by rw [get?_withPlayer, hp, Option.some_or]⟩
  · intro who p hp id hplace
    rw [get?_withPlayer] at hp
    cases hold : registry.players.get? who with
    | some p' =>
        rw [hold, Option.some_or] at hp
        cases hp
        exact h.listed hold id hplace
    | none =>
        rw [hold, Option.none_or] at hp
        split at hp
        · cases hp
          rw [hnowhere] at hplace
          cases hplace
        · cases hp

/-- Whoever leaves the server is taken off every list. -/
theorem withoutPlayer (h : Seated registry) (who : PlayerId) :
    Seated (registry.withoutPlayer who) := by
  have hplayer (other : PlayerId) : (registry.withoutPlayer who).players.get? other =
      if other = who then none else registry.players.get? other :=
    Slots.get?_erase h.distinct _ _
  constructor
  · exact Slots.nodup_ids_erase h.distinct who
  · intro id c' hc' other hother
    rw [get?_withoutPlayer] at hc'
    obtain ⟨c, hc, rfl⟩ := Option.map_eq_some_iff.mp hc'
    obtain ⟨hmem, hne⟩ := List.mem_filter.mp hother
    rw [hplayer, if_neg (of_decide_eq_true hne)]
    exact h.known hc other hmem
  · intro other p hp id hplace
    rw [hplayer] at hp
    split at hp
    · cases hp
    · rename_i hne
      obtain ⟨c, hc, hmem⟩ := h.listed hp id hplace
      exact ⟨forget who c, by rw [get?_withoutPlayer, hc, Option.map_some],
        List.mem_filter.mpr ⟨hmem, decide_eq_true hne⟩⟩

/-- A player goes to a channel that lists the player, or nowhere. -/
theorem goTo (h : Seated registry) (who : PlayerId) {place : Option ChannelId}
    (hplace : ∀ id, place = some id →
      ∃ c, registry.channels.get? id = some c ∧ who ∈ c.members) :
    Seated { registry with players := registry.players.modify who (Player.goTo place) } := by
  constructor
  · have hids : (registry.players.modify who (Player.goTo place)).ids = registry.players.ids :=
      Slots.ids_modify _ _ (Player.goTo place) fun _ => rfl
    exact hids ▸ h.distinct
  · intro id c hc other hother
    obtain ⟨p, hp⟩ := h.known hc other hother
    exact Slots.exists_get?_modify who (Player.goTo place) (fun _ => rfl) hp
  · intro other p' hp' id hid
    have hp := (get?_goTo who other place registry.players).symm.trans hp'
    split at hp
    · subst other
      obtain ⟨p, -, rfl⟩ := Option.map_eq_some_iff.mp hp
      exact hplace id hid
    · exact h.listed hp id hid

/-- The members of a channel may be others, if they are there, and if no player notes the channel
who is not among them any more. -/
theorem withChange (h : Seated registry) {id : ChannelId} {f : Channel → Channel}
    (hid : ∀ c, registry.channels.get? id = some c → (f c).id = c.id)
    (hknown : ∀ c, registry.channels.get? id = some c → ∀ who ∈ (f c).members,
      ∃ p, registry.players.get? who = some p)
    (hlisted : ∀ c, registry.channels.get? id = some c → ∀ who ∈ c.members,
      who ∈ (f c).members ∨ ∀ p, registry.players.get? who = some p → p.channel ≠ some id) :
    Seated (registry.withChange id f) := by
  have hget := get?_withChange id f hid
  constructor
  · exact h.distinct
  · intro id' c' hc'
    rw [hget] at hc'
    split at hc'
    · subst id'
      obtain ⟨c, hc, rfl⟩ := Option.map_eq_some_iff.mp hc'
      exact hknown c hc
    · exact h.known hc'
  · intro who p hp id' hplace
    obtain ⟨c, hc, hwho⟩ := h.listed hp id' hplace
    by_cases heq : id' = id
    · subst heq
      have hstays := (hlisted c hc who hwho).resolve_right fun hgone => hgone p hp hplace
      exact ⟨f c, by rw [hget, if_pos rfl, hc, Option.map_some], hstays⟩
    · exact ⟨c, by rw [hget, if_neg heq, hc], hwho⟩

/-- Whoever takes a seat is first put on the list and then goes there. -/
theorem seat (h : Seated registry) {target : ChannelId} {who : PlayerId} {c : Channel} {p : Player}
    (hseat : Seatable registry target who c p) : Seated (registry.seat target who) := by
  have hid (d : Channel) : (d.receive who).id = d.id := (Forest.node_receive who d).1
  have hreceive : Seated (registry.withChange target (Channel.receive who)) := by
    refine h.withChange (fun d _ => hid d) (fun d hd other hother => ?_) fun d _ other hother =>
      .inl (Channel.mem_receive.mpr (.inl hother))
    rcases Channel.mem_receive.mp hother with hold | rfl
    · exact h.known hd other hold
    · exact ⟨p, hseat.known⟩
  refine hreceive.goTo who fun id hplace => ?_
  cases hplace
  refine ⟨c.receive who, ?_, Channel.mem_receive.mpr (.inr rfl)⟩
  rw [get?_withChange _ _ fun d _ => hid d, if_pos rfl, hseat.found, Option.map_some]

/-- Whoever quits may as well go away first and be taken off the list then, so that at no time a
player notes a channel without being listed. -/
theorem quit (h : Seated registry) {who : PlayerId} (p : Player) :
    Seated (registry.quit who p) := by
  let away : Registry :=
    { registry with players := registry.players.modify who (Player.goTo none) }
  have haway : Seated away := h.goTo who (by rintro _ ⟨⟩)
  have hnowhere (q : Player) (hq : away.players.get? who = some q) : q.channel = none := by
    have hgoTo := get?_goTo who who none registry.players
    rw [if_pos rfl] at hgoTo
    obtain ⟨q', -, rfl⟩ := Option.map_eq_some_iff.mp (hgoTo.symm.trans hq)
    rfl
  have hquit : registry.quit who p = away.unseat who p := by
    unfold Registry.quit unseat
    split <;> rfl
  rw [hquit, unseat]
  split
  · refine haway.withChange (fun _ _ => rfl) (fun c hc other hother => ?_)
      fun c _ other hother => ?_
    · exact haway.known hc other (List.mem_of_mem_filter hother)
    · by_cases hother' : other = who
      · subst other
        refine .inr fun q hq hplace => ?_
        rw [hnowhere q hq] at hplace
        cases hplace
      · exact .inl (List.mem_filter.mpr ⟨hother, decide_eq_true hother'⟩)
  · exact haway

/-! ## Every change -/

theorem change (h : Seated registry) (hforest : Forest registry) {way : Way}
    (hchange : Change registry way registry') : Seated registry' := by
  by_cases hway : way ∈ [.unlink, .graft, .crown, .edit, .setRights, .ban, .unban]
  · exact h.of_change hforest hchange hway
  · cases hchange with
    | add hadd => exact h.withChannel hadd.free
    | remove found _ => exact h.remove hforest.distinct found
    | arrive fresh nowhere _ => exact h.withPlayer fresh nowhere
    | depart _ => exact h.withoutPlayer _
    | seat hseat => exact h.seat hseat
    | quit _ => exact h.quit _
    | _ => exact absurd (by decide) hway

end Seated

section Reachable

variable {store : Store} {limits : Limits} {session : Session}

theorem listedOnce_of_reachable (h : Session.Reachable store limits session) :
    ListedOnce session.registry :=
  invariant_of_forest (fun _ _ hc => by cases hc)
    (fun _ _ _ hforest h hchange => h.change hforest hchange) h

/-- In every reachable session channels and players agree on who is where. -/
theorem seated_of_reachable (h : Session.Reachable store limits session) :
    Seated session.registry :=
  invariant_of_forest (.empty limits) (fun _ _ _ hforest h hchange => h.change hforest hchange) h

end Reachable

end Registry

/-- A player who is not known by an account is looked up by the own id. -/
theorem Player.identity_of_guest {p : Player} (h : p.isRegistered = false) :
    p.identity = .unregistered p.id := by
  unfold identity
  unfold isRegistered at h
  cases haccount : p.account with
  | none => rfl
  | some account =>
      rw [haccount, Option.isSome_some, Bool.and_true] at h
      simp only [h, Bool.false_eq_true, if_false]

namespace Session

variable {store : Store} {limits : Limits} {session : Session}

open Registry (Forest Sound Seated Recorded)

/-! ## New players -/

/-- Who is added gets an id that nobody has, and is put at the end. -/
theorem step_addPlayer {newcomer : Newcomer} {secret : UInt32} {who : PlayerId}
    (h : (session.step store (.addPlayer newcomer secret)).1 = .ok (.player who)) :
    session.registry.players.get? who = none ∧
      (session.step store (.addPlayer newcomer secret)).2.registry =
        session.registry.withPlayer (Registry.arrival who newcomer secret) := by
  obtain ⟨hnext, -, hregistry⟩ := given_of_answer
    (Registry.addPlayer_givesNext newcomer secret) rfl Answer.player.inj h
  exact ⟨hnext.get?_eq_none, hregistry⟩

/-- Who is added is on no list, and no record is about the id. -/
theorem unlisted_newcomer (h : Reachable store limits session) {newcomer : Newcomer}
    {secret : UInt32} {who : PlayerId}
    (hadded : (session.step store (.addPlayer newcomer secret)).1 = .ok (.player who)) :
    ∀ c ∈ (session.step store (.addPlayer newcomer secret)).2.registry.channels.entries,
      who ∉ c.members ∧ ∀ record ∈ c.records, record.identity ≠ .unregistered who := by
  obtain ⟨hfresh, hregistry⟩ := step_addPlayer hadded
  have hforest := Registry.forest_of_reachable h
  intro c hc
  rw [hregistry] at hc
  have hfound : session.registry.channels.get? c.id = some c :=
    Slots.get?_of_mem hforest.distinct hc
  have hgone : ¬ ∃ p, session.registry.players.get? who = some p := fun ⟨p, hp⟩ => by
    rw [hfresh] at hp
    cases hp
  refine ⟨fun hwho => hgone ((Registry.seated_of_reachable h).known hfound who hwho), ?_⟩
  intro record hrecord hidentity
  have hrecords := Registry.recordsOf_of_found hfound
  exact hgone ((Registry.recorded_of_reachable h).known c.id record (hrecords ▸ hrecord) who
    hidentity)

/-- A guest who is added has no rights, wherever one asks. -/
theorem privileges_newcomer (h : Reachable store limits session) {newcomer : Newcomer}
    {secret : UInt32} {who : PlayerId}
    (hadded : (session.step store (.addPlayer newcomer secret)).1 = .ok (.player who))
    (hguest : (Registry.arrival who newcomer secret).isRegistered = false) {place : ChannelId}
    {c : Channel}
    (hplace : (session.step store (.addPlayer newcomer secret)).2.registry.channels.get? place =
      some c) :
    ((session.step store (.addPlayer newcomer secret)).2.step store (.privileges who place)).1 =
      .ok (.record
        { channel := c.parent.getD place, identity := .unregistered who, rights := .none }) := by
  obtain ⟨hfresh, hregistry⟩ := step_addPlayer hadded
  have hafter := h.step (.addPlayer newcomer secret)
  have hledger := @Registry.ledger_step_of_quiet store session (.addPlayer newcomer secret)
    (by simp [Operation.ways, Registry.quietWays])
  generalize (session.step store (.addPlayer newcomer secret)).2 = after at *
  have hplayer : after.registry.players.get? who =
      some (Registry.arrival who newcomer secret) := by
    rw [hregistry, Registry.get?_withPlayer, hfresh, Option.none_or]
    exact if_pos rfl
  have hidentity := Player.identity_of_guest hguest
  have hkey : after.registry.key? who place =
      some (c.parent.getD place, .unregistered who) := by
    rw [Registry.key?, hplayer, hplace]
    exact congrArg (fun identity => some (c.parent.getD place, identity)) hidentity
  have hanswer := (@answers_of_key? store after (Registry.forest_of_reachable hafter)
    (Registry.recorded_of_reachable hafter) _ _ _ _ hkey).1
  rw [hledger, (Registry.recorded_of_reachable h).ledger_of_unknown hfresh] at hanswer
  exact hanswer

/-! ## New channels -/

/-- A channel that is added is the first with its id, and is put at the end. -/
theorem step_addChannel {info : Metadata} {id : ChannelId}
    (h : (session.step store (.addChannel info)).1 = .ok (.channel id)) :
    session.registry.channels.get? id = none ∧
      (session.step store (.addChannel info)).2.registry =
        session.registry.withChannel id info := by
  obtain ⟨hnext, -, hregistry⟩ := given_of_answer
    (Registry.addChannel_givesNext info) rfl Answer.channel.inj h
  exact ⟨hnext.get?_eq_none, hregistry⟩

/-- Only where channels are added, there is a channel that was not there before. -/
theorem missing_step (hsound : Sound session.registry) {operation : Operation} {id : ChannelId}
    (hways : ∀ way ∈ operation.ways, way ≠ .add)
    (hmissing : session.registry.channels.get? id = none) :
    (session.step store operation).2.registry.channels.get? id = none := by
  refine step_keeps_of_sound (P := fun r => r.channels.get? id = none)
    (fun r way r' hr hway hchange hnone => ?_) hsound hmissing
  have hfate := Registry.fate_of_change hr.forest hchange id
  cases hc' : r'.channels.get? id with
  | none => rfl
  | some c' =>
      rw [hc'] at hfate
      obtain ⟨c, hc, -⟩ := hfate.before (hways way hway)
      rw [hnone] at hc
      cases hc

/-- Whatever adds a channel, an import included, adds it without members and without records. -/
theorem blank_newcomer (hsound : Sound session.registry) {operation : Operation} {id : ChannelId}
    {c : Channel} (hmissing : session.registry.channels.get? id = none)
    (hc : (session.step store operation).2.registry.channels.get? id = some c) : c.Blank := by
  have hadding (hways : ∀ way ∈ operation.ways, way ∈ Registry.importing) : c.Blank := by
    have hgrows : Registry.Grows session.registry (session.step store operation).2.registry :=
      step_relates_of_sound Registry.Grows.refl (fun _ _ _ => .trans)
        (fun _ way _ hr hway hchange => .of_change hr.forest hchange (hways way hway)) hsound
    rcases hgrows id c hc with hblank | ⟨c₀, hc₀, -⟩
    · exact hblank
    · rw [hmissing] at hc₀
      cases hc₀
  have hother (hways : ∀ way ∈ operation.ways, way ≠ .add) : c.Blank := by
    rw [missing_step hsound hways hmissing] at hc
    cases hc
  cases operation with
  | addChannel info => exact hadding (by simp [Operation.ways, Registry.importing])
  | importBatch entries => exact hadding fun _ hway => hway
  | importStream stream => exact hadding fun _ hway => hway
  | _ => exact hother (by simp [Operation.ways])

/-- A channel that was not there before is noted by no player. -/
theorem unnoted_newcomer (h : Reachable store limits session) {operation : Operation}
    {id : ChannelId} {c : Channel} (hmissing : session.registry.channels.get? id = none)
    (hc : (session.step store operation).2.registry.channels.get? id = some c) :
    ∀ p ∈ (session.step store operation).2.registry.players.entries, p.channel ≠ some id := by
  have hseated := Registry.seated_of_reachable (h.step operation)
  intro p hp hplace
  obtain ⟨c', hc', hwho⟩ := hseated.listed (Slots.get?_of_mem hseated.distinct hp) id hplace
  rw [hc] at hc'
  cases hc'
  rw [(blank_newcomer (Registry.sound_of_reachable h) hmissing hc).1] at hwho
  cases hwho

/-- A channel that is added is below no channel and above none. -/
theorem unlinked_newcomer (h : Reachable store limits session) {info : Metadata} {id : ChannelId}
    (hadded : (session.step store (.addChannel info)).1 = .ok (.channel id)) :
    ∀ c ∈ (session.step store (.addChannel info)).2.registry.channels.entries,
      c.parent ≠ some id ∧ id ∉ c.subchannels := by
  obtain ⟨hfree, hregistry⟩ := step_addChannel hadded
  have hforest := Registry.forest_of_reachable h
  intro c hc
  rw [hregistry] at hc
  rcases List.mem_append.mp hc with hold | hnew
  · have hfound : session.registry.channels.get? c.id = some c :=
      Slots.get?_of_mem hforest.distinct hold
    have hgone : ¬ ∃ d, session.registry.channels.get? id = some d := fun ⟨d, hd⟩ => by
      rw [hfree] at hd
      cases hd
    exact ⟨fun hparent => hgone (hforest.parentFound hfound id hparent),
      fun hlisted => hgone (hforest.found hfound id hlisted)⟩
  · rw [List.mem_singleton.mp hnew]
    exact ⟨by rintro ⟨⟩, List.not_mem_nil⟩

/-- In a reachable session the members of every channel are distinct and there, whoever notes a
channel is listed by it, and every record of a player without an account is of a player who is
there.  So whoever gets the id of a player who is gone is on no list and has no rights, and whatever
channel gets the id of one that is gone has no members, no records and no neighbours. -/
theorem presence_of_reachable (h : Reachable store limits session) :
    (∀ c ∈ session.registry.channels.entries, c.members.Nodup ∧
      ∀ who ∈ c.members, ∃ p ∈ session.registry.players.entries, p.id = who) ∧
    (∀ p ∈ session.registry.players.entries, ∀ id, p.channel = some id →
      ∃ c ∈ session.registry.channels.entries, c.id = id ∧ p.id ∈ c.members) ∧
    (∀ c ∈ session.registry.channels.entries, ∀ record ∈ c.records,
      ∀ who, record.identity = .unregistered who →
        ∃ p ∈ session.registry.players.entries, p.id = who) ∧
    (∀ newcomer secret who,
      let after := session.step store (.addPlayer newcomer secret)
      after.1 = .ok (.player who) →
        (∀ c ∈ after.2.registry.channels.entries, who ∉ c.members ∧
          ∀ record ∈ c.records, record.identity ≠ .unregistered who) ∧
        ((Registry.arrival who newcomer secret).isRegistered = false →
          ∀ place c, after.2.registry.channels.get? place = some c →
            (after.2.step store (.privileges who place)).1 =
              .ok (.record
                { channel := c.parent.getD place
                  identity := .unregistered who
                  rights := .none }))) ∧
    (∀ info id,
      let after := session.step store (.addChannel info)
      after.1 = .ok (.channel id) →
        after.2.registry.channels.get? id = some { id, info } ∧
        (∀ p ∈ after.2.registry.players.entries, p.channel ≠ some id) ∧
        ∀ c ∈ after.2.registry.channels.entries, c.parent ≠ some id ∧ id ∉ c.subchannels) ∧
    ∀ operation id c, session.registry.channels.get? id = none →
      (session.step store operation).2.registry.channels.get? id = some c →
        c.members = [] ∧ c.records = [] ∧
          ∀ p ∈ (session.step store operation).2.registry.players.entries, p.channel ≠ some id := by
  have hforest := Registry.forest_of_reachable h
  have hseated := Registry.seated_of_reachable h
  have hrecorded := Registry.recorded_of_reachable h
  have hthere {who : PlayerId} (hknown : ∃ p, session.registry.players.get? who = some p) :
      ∃ p ∈ session.registry.players.entries, p.id = who := by
    obtain ⟨p, hp⟩ := hknown
    exact ⟨p, Slots.mem_of_get? hp, Slots.id_of_get? hp⟩
  refine ⟨?_, ?_, ?_, ?_, ?_, ?_⟩
  · intro c hc
    have hfound : session.registry.channels.get? c.id = some c :=
      Slots.get?_of_mem hforest.distinct hc
    exact ⟨Registry.listedOnce_of_reachable h c.id c hfound,
      fun who hwho => hthere (hseated.known hfound who hwho)⟩
  · intro p hp id hplace
    obtain ⟨c, hc, hlisted⟩ := hseated.listed (Slots.get?_of_mem hseated.distinct hp) id hplace
    exact ⟨c, Slots.mem_of_get? hc, Slots.id_of_get? hc, hlisted⟩
  · intro c hc record hrecord who hidentity
    have hfound : session.registry.channels.get? c.id = some c :=
      Slots.get?_of_mem hforest.distinct hc
    have hrecords := Registry.recordsOf_of_found hfound
    exact hthere (hrecorded.known c.id record (hrecords ▸ hrecord) who hidentity)
  · intro newcomer secret who after hadded
    exact ⟨unlisted_newcomer h hadded, fun hguest place c hplace =>
      privileges_newcomer h hadded hguest hplace⟩
  · intro info id after hadded
    obtain ⟨hfree, hregistry⟩ := step_addChannel hadded
    have hfound : after.2.registry.channels.get? id = some { id, info } := by
      rw [hregistry, Registry.get?_withChannel hfree, if_pos rfl]
    exact ⟨hfound, unnoted_newcomer h hfree hfound, unlinked_newcomer h hadded⟩
  · intro operation id c hmissing hc
    obtain ⟨hmembers, hrecords⟩ := blank_newcomer (Registry.sound_of_reachable h) hmissing hc
    exact ⟨hmembers, hrecords, unnoted_newcomer h hmissing hc⟩

/-- A guest is in a channel and may speak there.  The next guest has the same id, but is not in the
channel and may not speak. -/
theorem presence_of_second_guest :
    let session := (start (.empty {})).run .none
      [.addChannel .preset, .addPlayer (.guest "a" "m") 1, .join ⟨1⟩ ⟨1⟩, .grant ⟨1⟩ ⟨1⟩ .voice,
        .removePlayer ⟨1⟩]
    let after := session.step .none (.addPlayer (.guest "b" "m") 2)
    after.1 = .ok (.player ⟨1⟩) ∧ (∀ c ∈ after.2.registry.channels.entries, ⟨1⟩ ∉ c.members) ∧
      (after.2.step .none (.privileges ⟨1⟩ ⟨1⟩)).1 =
        .ok (.record { channel := ⟨1⟩, identity := .unregistered ⟨1⟩, rights := .none }) := by
  intro session after
  obtain ⟨-, -, -, hplayer, -⟩ := @presence_of_reachable .none {} session
    (.step _ (.step _ (.step _ (.step _ (.step _ .start)))))
  have hadded : after.1 = .ok (.player ⟨1⟩) := by
    have hid : (Registry.addPlayer (.guest "b" "m") 2).run' session.registry = some ⟨1⟩ := by
      decide +kernel
    obtain ⟨registry, hok⟩ := exists_ok_of_run hid
    exact congrArg Prod.fst (step_of_ok hok rfl)
  have hplace : after.2.registry.channels.get? ⟨1⟩ = some { id := ⟨1⟩, info := .preset } := by
    decide +kernel
  obtain ⟨hlists, hrights⟩ := hplayer (.guest "b" "m") 2 ⟨1⟩ hadded
  exact ⟨hadded, fun c hc => (hlists c hc).1, hrights rfl ⟨1⟩ _ hplace⟩

end Session

end ChannelServer
