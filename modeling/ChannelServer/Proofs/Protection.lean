import ChannelServer.Proofs.Forest

/-!
# Passwords of a group

A channel and its subchannels are a group with one password, that of the channel on top.  Whether a
channel is protected is read off its effective flags, and what opens it is asked of its owner: two
ways up, each written for itself.  They find the same channel, because the flag of the password is
inherited.  So the protection of a channel is a matter of its owner alone, and what a subchannel
stores for itself is never looked at.

A password is changed at the owner.  The whole group sees the change, and whoever has another owner
does not.

## Main results

* `effectivePassword_of_owner`, `admits_of_owner`: protection as a matter of the owner.
* `owner_of_mem_group`, `owner_withChange_of_notMem`: who sees the change of an owner.
* `protection_of_reachable`: what setting and clearing a password do in every reachable session.
-/

namespace ChannelServer

/-- The ids of a channel and of its subchannels. -/
def Channel.group (c : Channel) : List ChannelId := c.id :: c.subchannels

namespace Registry

variable {registry registry' : Registry}

/-! ## Protection as a matter of the owner -/

theorem effectivePassword_of_owner {id : ChannelId} {owner : Channel}
    (h : registry.owner id = .ok owner) :
    registry.effectivePassword id =
      if owner.info.flags.has .password then .ok owner.password
      else .error (.unprotected id) := by
  rw [effectivePassword, bind_of_ok h]
  rfl

/-- The owner is looked up along the same parents as the effective flags. -/
theorem exists_effectiveFlags_of_owner {id : ChannelId} {owner : Channel}
    (h : registry.owner id = .ok owner) :
    ∃ flags, registry.effectiveFlags id = .ok flags ∧
      flags.has .password = owner.info.flags.has .password := by
  obtain ⟨c, hc, howner⟩ := bind_eq_ok.mp h
  rw [channel_eq_ok] at hc
  cases hparent : c.parent with
  | none =>
      rw [hparent] at howner
      cases howner
      exact ⟨_, effectiveFlags_of_top hc hparent, rfl⟩
  | some parent =>
      rw [hparent] at howner
      exact ⟨_, effectiveFlags_of_below hc hparent (channel_eq_ok.mp howner),
        Flags.has_without_of_disjoint _ (by decide)⟩

theorem admits_of_owner {id : ChannelId} {owner : Channel} (h : registry.owner id = .ok owner)
    (candidate : List UInt8) :
    registry.admits id candidate =
      .ok (if owner.info.flags.has .password then owner.password.accepts candidate
        else true) := by
  obtain ⟨flags, hflags, hhas⟩ := exists_effectiveFlags_of_owner h
  rw [admits, bind_of_ok hflags, hhas, effectivePassword_of_owner h]
  cases owner.info.flags.has .password <;> rfl

/-- What is protected is opened by the password of the owner. -/
theorem admits_of_protected {id : ChannelId} {owner : Channel} (h : registry.owner id = .ok owner)
    (hflag : owner.info.flags.has .password = true) (candidate : List UInt8) :
    registry.admits id candidate = .ok (owner.password.accepts candidate) := by
  rw [admits_of_owner h, if_pos hflag]

/-- A channel that is not there has no effective flags and no password. -/
theorem admits_of_missing {id : ChannelId} (h : registry.channels.get? id = none)
    (candidate : List UInt8) :
    registry.effectivePassword id = .error (.missing (.channel id)) ∧
      registry.admits id candidate = .error (.missing (.channel id)) := by
  have hflags : registry.effectiveFlags id = .error (.missing (.channel id)) :=
    bind_of_error (channel_eq_error h) _
  exact ⟨bind_of_error (owner_of_missing h) _, bind_of_error hflags _⟩

/-! ## Who sees a change -/

/-- The top channel of a group owns every channel in it. -/
theorem Forest.owner_of_mem_group (h : Forest registry) {c : Channel}
    (hc : registry.channels.get? c.id = some c) (htop : c.parent = none) {id : ChannelId}
    (hid : id ∈ c.group) : registry.owner id = .ok c := by
  rcases List.mem_cons.mp hid with rfl | hmem
  · exact owner_of_top hc htop
  · obtain ⟨d, hd⟩ := h.found hc id hmem
    exact owner_of_below hd (h.parent_of_mem hc hmem hd) hc

/-- A change of a top channel is not seen outside of its group. -/
theorem Forest.owner_withChange_of_notMem (h : Forest registry) {c d : Channel}
    (hc : registry.channels.get? c.id = some c) {f : Channel → Channel}
    (hf : ∀ c, (f c).id = c.id) {id : ChannelId} (hid : id ∉ c.group)
    (hd : registry.channels.get? id = some d) :
    (registry.withChange c.id f).owner id = registry.owner id := by
  have hget := @get?_withChange registry c.id f fun c _ => hf c
  obtain ⟨hne, hunlisted⟩ := not_or.mp (mt List.mem_cons.mpr hid)
  have hd' : (registry.withChange c.id f).channels.get? id = some d := by rw [hget, if_neg hne, hd]
  cases hparent : d.parent with
  | none => rw [owner_of_top hd hparent, owner_of_top hd' hparent]
  | some parent =>
      obtain ⟨p, hp, hlisted⟩ := (h.parent_iff hd parent).mp hparent
      have hother : parent ≠ c.id := by
        rintro rfl
        rw [hc] at hp
        cases hp
        exact hunlisted hlisted
      have hp' : (registry.withChange c.id f).channels.get? parent = some p := by
        rw [hget, if_neg hother, hp]
      rw [owner_of_below hd hparent hp, owner_of_below hd' hparent hp']

/-- The registry after is the one before with another protection of the group of `c`. -/
structure KeptBeside (registry registry' : Registry) (c : Channel) : Prop where
  password : ∀ id ∉ c.group, registry'.effectivePassword id = registry.effectivePassword id
  admits : ∀ id ∉ c.group, ∀ candidate,
    registry'.admits id candidate = registry.admits id candidate
  /-- Of the flags of `c`, only that of the password may be another. -/
  flags : ∃ c', registry'.channels.get? c.id = some c' ∧
    c'.info.flags.without .password = c.info.flags.without .password
  /-- The other channels are as they were, those of the group included. -/
  others : ∀ id, id ≠ c.id → registry'.channels.get? id = registry.channels.get? id

theorem Forest.keptBeside (h : Forest registry) {c : Channel}
    (hc : registry.channels.get? c.id = some c) {f : Channel → Channel}
    (hf : ∀ c : Channel, c.Edited (f c)) : KeptBeside registry (registry.withChange c.id f) c := by
  have hget := @get?_withChange registry c.id f fun c _ => (hf c).id
  have hkept (id : ChannelId) (hid : id ∉ c.group) (candidate : List UInt8) :
      (registry.withChange c.id f).effectivePassword id = registry.effectivePassword id ∧
        (registry.withChange c.id f).admits id candidate = registry.admits id candidate := by
    cases hd : registry.channels.get? id with
    | none =>
        have hne : id ≠ c.id := fun heq => hid (heq ▸ List.mem_cons_self)
        have hd' : (registry.withChange c.id f).channels.get? id = none := by
          rw [hget, if_neg hne, hd]
        obtain ⟨hpassword, hadmits⟩ := admits_of_missing hd candidate
        obtain ⟨hpassword', hadmits'⟩ := admits_of_missing hd' candidate
        exact ⟨hpassword'.trans hpassword.symm, hadmits'.trans hadmits.symm⟩
    | some d =>
        obtain ⟨owner, howner, -⟩ := h.exists_owner hd
        have howner' := (h.owner_withChange_of_notMem hc (fun c => (hf c).id) hid hd).trans howner
        rw [effectivePassword_of_owner howner, effectivePassword_of_owner howner',
          admits_of_owner howner, admits_of_owner howner']
        exact ⟨rfl, rfl⟩
  constructor
  · exact fun id hid => (hkept id hid []).1
  · exact fun id hid candidate => (hkept id hid candidate).2
  · exact ⟨f c, by rw [hget, if_pos rfl, hc, Option.map_some], (hf c).flags⟩
  · exact fun id hid => by rw [hget, if_neg hid]

/-! ## Setting and clearing a password -/

/-- The whole group is opened by the password of its top channel and by nothing else. -/
theorem Forest.admits_protect (h : Forest registry) {c : Channel}
    (hc : registry.channels.get? c.id = some c) (htop : c.parent = none) {bytes : List UInt8}
    {password : Password} (hpassword : Password.ofBytes bytes = .ok password) {id : ChannelId}
    (hid : id ∈ c.group) :
    (registry.withChange c.id (Channel.protect password)).effectivePassword id = .ok password ∧
      ∀ candidate, (registry.withChange c.id (Channel.protect password)).admits id candidate =
        .ok (decide (candidate = bytes)) := by
  have howner := @owner_withChange registry id c (Channel.protect password) (fun _ => rfl)
    (fun _ => rfl) (h.owner_of_mem_group hc htop hid)
  have hflag : (c.protect password).info.flags.has .password = true := Flags.has_union_self _ _
  refine ⟨by rw [effectivePassword_of_owner howner, if_pos hflag]; rfl, fun candidate => ?_⟩
  have haccepts : (c.protect password).password.accepts candidate = decide (candidate = bytes) := by
    rw [Password.accepts, ← Password.content_ofBytes hpassword, Bool.beq_eq_decide_eq]
    exact decide_eq_decide.mpr eq_comm
  rw [admits_of_protected howner hflag, haccepts]

/-- Without protection, every candidate opens the whole group. -/
theorem Forest.admits_unprotect (h : Forest registry) {c : Channel}
    (hc : registry.channels.get? c.id = some c) (htop : c.parent = none) {id : ChannelId}
    (hid : id ∈ c.group) :
    (registry.withChange c.id Channel.unprotect).effectivePassword id =
        .error (.unprotected id) ∧
      ∀ candidate, (registry.withChange c.id Channel.unprotect).admits id candidate =
        .ok true := by
  have howner := @owner_withChange registry id c Channel.unprotect (fun _ => rfl) (fun _ => rfl)
    (h.owner_of_mem_group hc htop hid)
  have hflag : c.unprotect.info.flags.has .password = false :=
    Flags.not_has_without _ (by decide) (by decide)
  refine ⟨?_, fun candidate => ?_⟩
  · rw [effectivePassword_of_owner howner, hflag]
    rfl
  · rw [admits_of_owner howner, hflag]
    rfl

end Registry

namespace Session

variable {store : Store} {limits : Limits} {session : Session}

/-- A password of a top channel is set if the bytes can be a password. -/
theorem step_setPassword {top : ChannelId} (htop : Registry.IsTop session.registry top)
    {bytes : List UInt8} {password : Password} (hpassword : Password.ofBytes bytes = .ok password) :
    session.step store (.setPassword top bytes) = (.ok .done,
      { session with registry := session.registry.withChange top (Channel.protect password) }) := by
  rw [step_of_ok ((Registry.setPassword_allOrNothing hpassword).ok htop) rfl]

/-- At most 29 bytes, none of which is NUL, can be a password. -/
theorem done_setPassword_iff {top : ChannelId} (htop : Registry.IsTop session.registry top)
    (bytes : List UInt8) :
    (session.step store (.setPassword top bytes)).1 = .ok .done ↔
      ∃ password, Password.ofBytes bytes = .ok password := by
  cases hpassword : Password.ofBytes bytes with
  | ok password => exact iff_of_true (by rw [step_setPassword htop hpassword]) ⟨password, rfl⟩
  | error fault =>
      rw [step_of_error (Registry.setPassword_error hpassword top _) rfl]
      exact iff_of_false nofun nofun

theorem step_clearPassword {top : ChannelId} (htop : Registry.IsTop session.registry top) :
    session.step store (.clearPassword top) = (.ok .done,
      { session with registry := session.registry.withChange top Channel.unprotect }) := by
  rw [step_of_ok ((Registry.clearPassword_allOrNothing top).ok htop) rfl]

/-- In a reachable session the password of a top channel can be set to up to 29 bytes without NUL.
From then on it opens the channel and its subchannels, whatever these store for themselves, and
nothing else does; when it is cleared, everything opens them.  No other channel notices, and no flag
but that of the password changes.  Whatever has a password has the flag for it among its effective
flags, so every candidate gets an answer in every channel that is there. -/
theorem protection_of_reachable (h : Reachable store limits session) :
    let registry := session.registry
    (∀ top c, registry.channels.get? top = some c → c.parent = none → ∀ bytes,
      let locked := session.step store (.setPassword top bytes)
      let opened := session.step store (.clearPassword top)
      (locked.1 = .ok .done ↔ bytes.length ≤ 29 ∧ 0 ∉ bytes) ∧
      (locked.1 = .ok .done → registry.KeptBeside locked.2.registry c ∧
        ∀ id ∈ c.group,
          (∃ password, locked.2.registry.effectivePassword id = .ok password ∧
            password.content = bytes) ∧
          ∀ candidate, locked.2.registry.admits id candidate =
            .ok (decide (candidate = bytes))) ∧
      opened.1 = .ok .done ∧ registry.KeptBeside opened.2.registry c ∧
        ∀ id ∈ c.group,
          opened.2.registry.effectivePassword id = .error (.unprotected id) ∧
          ∀ candidate, opened.2.registry.admits id candidate = .ok true) ∧
    ∀ id c, registry.channels.get? id = some c →
      ∃ flags, registry.effectiveFlags id = .ok flags ∧
        ((∃ password, registry.effectivePassword id = .ok password) ↔
          flags.has .password = true) ∧
        ∀ candidate, ∃ answer, registry.admits id candidate = .ok answer := by
  intro registry
  have hforest : Registry.Forest registry := Registry.forest_of_reachable h
  refine ⟨fun top c hc htop bytes => ?_, fun id c hc => ?_⟩
  · have hid : c.id = top := Slots.id_of_get? hc
    subst hid
    have htop' : Registry.IsTop registry c.id := ⟨c, hc, htop⟩
    have hdone := @done_setPassword_iff store session c.id htop' bytes
    refine ⟨hdone.trans Password.exists_ofBytes, fun hok => ?_, ?_⟩
    · obtain ⟨password, hpassword⟩ := hdone.mp hok
      rw [step_setPassword htop' hpassword]
      refine ⟨hforest.keptBeside hc (Registry.edited_protect password), fun id hid => ?_⟩
      obtain ⟨heffective, hadmits⟩ := hforest.admits_protect hc htop hpassword hid
      exact ⟨⟨password, heffective, Password.content_ofBytes hpassword⟩, hadmits⟩
    · rw [step_clearPassword htop']
      exact ⟨rfl, hforest.keptBeside hc Registry.edited_unprotect,
        fun id hid => hforest.admits_unprotect hc htop hid⟩
  · obtain ⟨owner, howner, -⟩ := hforest.exists_owner hc
    obtain ⟨flags, hflags, hhas⟩ := Registry.exists_effectiveFlags_of_owner howner
    refine ⟨flags, hflags, ?_, fun candidate => ⟨_, Registry.admits_of_owner howner candidate⟩⟩
    rw [Registry.effectivePassword_of_owner howner, hhas]
    cases owner.info.flags.has .password <;> simp

/-- A channel with a password goes below another one, which gets a password, too: the one below is
opened by the new password and no longer by its own.  When the password is cleared, everything opens
it.  A third channel keeps the password that it has. -/
theorem protection_of_hidden_password :
    let upper : Metadata := { Metadata.preset with flags := .subchannels }
    let session := (start (.empty {})).run .none
      [.importBatch [⟨⟨1⟩, none, upper⟩, ⟨⟨2⟩, none, .preset⟩, ⟨⟨3⟩, none, .preset⟩],
        .setPassword ⟨2⟩ [98], .setPassword ⟨3⟩ [99], .attach ⟨1⟩ ⟨2⟩]
    let locked := session.step .none (.setPassword ⟨1⟩ [97])
    let opened := session.step .none (.clearPassword ⟨1⟩)
    locked.1 = .ok .done ∧
      locked.2.registry.admits ⟨2⟩ [97] = .ok true ∧
      locked.2.registry.admits ⟨2⟩ [98] = .ok false ∧
      locked.2.registry.admits ⟨3⟩ [99] = session.registry.admits ⟨3⟩ [99] ∧
      opened.2.registry.admits ⟨2⟩ [98] = .ok true := by
  intro upper session locked opened
  have hreachable : Reachable .none {} session := .step _ (.step _ (.step _ (.step _ .start)))
  let first : Channel := { id := ⟨1⟩, info := upper, subchannels := [⟨2⟩] }
  have hfirst : session.registry.channels.get? ⟨1⟩ = some first := by decide +kernel
  obtain ⟨hlocked, hin, -, -, hopened⟩ :=
    (protection_of_reachable hreachable).1 ⟨1⟩ first hfirst rfl [97]
  have hdone : locked.1 = .ok .done := hlocked.mpr (by decide)
  obtain ⟨hkept, hgroup⟩ := hin hdone
  obtain ⟨-, hadmits⟩ := hgroup ⟨2⟩ (by decide)
  obtain ⟨-, hopen⟩ := hopened ⟨2⟩ (by decide)
  refine ⟨hdone, ?_, ?_, ?_, ?_⟩
  · rw [hadmits]
    rfl
  · rw [hadmits]
    rfl
  · rw [hkept.admits ⟨3⟩ (by decide)]
  · rw [hopen]

end Session

end ChannelServer
