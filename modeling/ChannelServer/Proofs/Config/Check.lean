import ChannelServer.Config.Check
import ChannelServer.Proofs.Flags
import ChannelServer.Proofs.Running
import Mathlib.Data.List.Induction
import Mathlib.Data.List.Nodup

/-!
# What the check of the settings asks for

The check goes through the channels and carries along what it knows of those before.  `Suits` says
what it asks of a channel in terms of the settings themselves, and `Suitable` says it of all of
them.  The flags that are meant by the names in the settings are on bits of their own, so a name is
there exactly if the flag is.

## Main results

* `ChannelSettings.has_info`: a flag is set exactly if it is named.
* `checkChannel_known`: what is asked of a channel, given those before.
* `check_eq_ok`: what is asked of all settings.
-/

namespace ChannelServer

namespace Flags

/-- The flags that can be named in settings, with their names. -/
def named : List (String × Flags) :=
  [("unregistered", unregistered), ("moderated", moderated), ("password", password),
    ("subchannels", subchannels), ("default", default)]

theorem mem_named {name : String} {flag : Flags} (h : ofName? name = some flag) :
    (name, flag) ∈ named := by
  unfold ofName? at h
  split at h <;> cases h <;> simp [named]

/-- Flags with different names have no bit in common. -/
theorem disjoint_of_named : ∀ one ∈ named, ∀ other ∈ named, one.1 ≠ other.1 →
    one.2.bits &&& other.2.bits = 0 := by
  decide

theorem ofName?_default : ofName? "default" = some default := rfl

theorem ofName?_password : ofName? "password" = some password := rfl

theorem ofName?_subchannels : ofName? "subchannels" = some subchannels := rfl

theorem not_none_has : ∀ one ∈ named, none.has one.2 = false := by
  decide

/-- Of two flags with names, to add one is to add the other exactly if the names are the same. -/
theorem has_union_named {name name' : String} {flag flag' : Flags}
    (hname : ofName? name = some flag) (hname' : ofName? name' = some flag') (flags : Flags) :
    (flags.union flag').has flag = (flags.has flag || decide (name = name')) := by
  by_cases hsame : name = name'
  · rw [hsame, hname'] at hname
    cases hname
    rw [has_union_self, decide_eq_true hsame, Bool.or_true]
  · have hdisjoint := disjoint_of_named _ (mem_named hname') _ (mem_named hname) (Ne.symm hsame)
    rw [has_union_of_disjoint flags hdisjoint, decide_eq_false hsame, Bool.or_false]

end Flags

namespace Config

/-- A check that is passed is as if it were not there. -/
theorem throw_else_eq_ok {ε α β : Type} {c : Prop} [Decidable c] {e : ε} {f : α → Except ε β}
    {x : Except ε β} {b : β} :
    (if c then (throw e : Except ε α) >>= f else x) = .ok b ↔ ¬ c ∧ x = .ok b := by
  split
  · rename_i hc
    exact ⟨nofun, fun h => absurd hc h.1⟩
  · rename_i hc
    exact ⟨fun h => ⟨hc, h⟩, fun h => h.2⟩

namespace ChannelSettings

variable {channel : ChannelSettings}

/-! ## Metadata -/

/-- The metadata of a channel, if it has any. -/
def info (channel : ChannelSettings) : Metadata := channel.metadata.toOption.getD .preset

theorem info_eq {info : Metadata} (h : channel.metadata = .ok info) : channel.info = info := by
  simp [ChannelSettings.info, h, Except.toOption]

theorem has_flagSet {flags : Flags} (h : channel.flagSet = .ok flags) {name : String}
    {flag : Flags} (hname : Flags.ofName? name = some flag) :
    flags.has flag = decide (name ∈ channel.flags) := by
  obtain ⟨step, hflags, hstep⟩ : ∃ step : Flags → String → Except SettingsFault Flags,
      channel.flagSet = channel.flags.foldlM step .none ∧
        ∀ before name next, step before name = .ok next →
          ∃ flag, Flags.ofName? name = some flag ∧ next = before.union flag := by
    refine ⟨_, rfl, fun before name next hnext => ?_⟩
    split at hnext
    · cases hnext
      exact ⟨_, ‹_›, rfl⟩
    · cases hnext
  have hfold (names : List String) (before : Flags) (h : names.foldlM step before = .ok flags) :
      flags.has flag = (before.has flag || decide (name ∈ names)) := by
    induction names generalizing before with
    | nil =>
        cases h
        simp
    | cons other names ih =>
        rw [List.foldlM_cons] at h
        obtain ⟨next, hnext, hrest⟩ := bind_eq_ok.mp h
        obtain ⟨flag', hother, rfl⟩ := hstep _ _ _ hnext
        rw [ih _ hrest, Flags.has_union_named hname hother, Bool.or_assoc]
        simp [List.mem_cons]
  rw [hflags] at h
  rw [hfold channel.flags .none h, Flags.not_none_has _ (Flags.mem_named hname), Bool.false_or]

theorem metadata_eq_ok {info : Metadata} : channel.metadata = .ok info ↔
    ∃ flags, channel.flagSet = .ok flags ∧ info = channel.metadataWith flags ∧
      info.check = .ok () := by
  unfold metadata
  constructor
  · intro h
    obtain ⟨flags, hflags, h⟩ := bind_eq_ok.mp h
    dsimp only at h
    split at h
    · cases h
      exact ⟨flags, hflags, rfl, ‹_›⟩
    · cases h
  · rintro ⟨flags, hflags, rfl, hcheck⟩
    refine bind_eq_ok.mpr ⟨flags, hflags, ?_⟩
    simp only [hcheck]
    rfl

theorem check_info (h : channel.metadata = .ok channel.info) : channel.info.check = .ok () := by
  obtain ⟨_, -, -, hcheck⟩ := metadata_eq_ok.mp h
  exact hcheck

/-- A channel has the flags that are named. -/
theorem has_info (h : channel.metadata = .ok channel.info) {name : String} {flag : Flags}
    (hname : Flags.ofName? name = some flag) :
    channel.info.flags.has flag = decide (name ∈ channel.flags) := by
  obtain ⟨flags, hflags, hinfo, -⟩ := metadata_eq_ok.mp h
  rw [hinfo]
  exact has_flagSet hflags hname

/-- What the check is to know of a channel. -/
def known (channel : ChannelSettings) : Known :=
  ⟨channel.name, channel.info.flags, channel.parent.isNone⟩

end ChannelSettings

/-! ## The rules -/

/-- What the settings of a channel have to be like, given those before. -/
structure Suits (before : List ChannelSettings) (channel : ChannelSettings) : Prop where
  valid : channel.metadata = .ok channel.info
  /-- No channel before has the name. -/
  fresh : ∀ other ∈ before, other.name ≠ channel.name
  /-- There is one default channel at most. -/
  single : "default" ∈ channel.flags → ∀ other ∈ before, "default" ∉ other.flags
  /-- There is no password flag without a password. -/
  locked : "password" ∈ channel.flags → channel.password ≠ none
  /-- A parent was named before, is on top and takes subchannels.  What is below it is not the
  default channel and has no password of its own. -/
  placed : ∀ parent, channel.parent = some parent →
    "default" ∉ channel.flags ∧ channel.password = none ∧
      ∃ other ∈ before, other.name = parent ∧ other.parent = none ∧ "subchannels" ∈ other.flags

/-- Every channel is as it has to be, given those before. -/
def Suitable (channels : List ChannelSettings) : Prop :=
  ∀ before channel later, channels = before ++ channel :: later → Suits before channel

section Suitable

variable {before later : List ChannelSettings} {channel : ChannelSettings}

theorem suitable_nil : Suitable [] := by
  intro before channel later h
  exact absurd h.symm (by simp)

theorem Suitable.of_append (h : Suitable (before ++ later)) : Suitable before :=
  fun before' channel later' heq => h before' channel (later' ++ later) (by simp [heq])

theorem Suitable.last (h : Suitable (before ++ [channel])) : Suits before channel :=
  h before channel [] rfl

theorem Suitable.snoc (h : Suitable before) (hsuits : Suits before channel) :
    Suitable (before ++ [channel]) := by
  intro before' channel' later' heq
  rcases List.eq_nil_or_concat later' with rfl | ⟨later', last, rfl⟩
  · obtain ⟨rfl, hlast⟩ := List.append_inj' heq rfl
    cases hlast
    exact hsuits
  · have hsplit : before ++ [channel] = (before' ++ channel' :: later') ++ [last] := by
      rw [heq]
      simp
    obtain ⟨rfl, -⟩ := List.append_inj' hsplit rfl
    exact h before' channel' later' rfl

theorem Suitable.suits_of_mem (h : Suitable before) (hmem : channel ∈ before) :
    ∃ earlier, earlier ⊆ before ∧ Suits earlier channel := by
  obtain ⟨earlier, later, rfl⟩ := List.append_of_mem hmem
  exact ⟨earlier, List.subset_append_left _ _, h earlier channel later rfl⟩

theorem Suitable.valid (h : Suitable before) (hmem : channel ∈ before) :
    channel.metadata = .ok channel.info := by
  obtain ⟨_, -, hsuits⟩ := h.suits_of_mem hmem
  exact hsuits.valid

/-- No two channels have the same name. -/
theorem Suitable.nodup_names (h : Suitable before) : (before.map (·.name)).Nodup := by
  induction before using List.reverseRecOn with
  | nil => exact List.nodup_nil
  | append_singleton before channel ih =>
      rw [List.map_append, List.map_singleton]
      refine List.nodup_append.mpr ⟨ih h.of_append, List.nodup_singleton _, ?_⟩
      intro a ha b hb heq
      obtain ⟨other, hother, rfl⟩ := List.mem_map.mp ha
      exact h.last.fresh other hother (heq.trans (List.mem_singleton.mp hb))

end Suitable

/-! ## The check -/

theorem checkParent_eq_ok {known : List Known} {channel : ChannelSettings} {flags : Flags}
    {parent : String} : checkParent known channel flags parent = .ok () ↔
      flags.has .default = false ∧ channel.password = none ∧
        ∃ found, known.find? (·.name = parent) = some found ∧ found.isTop = true ∧
          found.flags.has .subchannels = true := by
  unfold checkParent
  simp only [throw_else_eq_ok, Bool.not_eq_true, Option.isSome_eq_false_iff,
    Option.isNone_iff_eq_none]
  refine and_congr_right fun _ => and_congr_right fun _ => ?_
  cases known.find? (·.name = parent) with
  | none => simp [throw, throwThe, MonadExceptOf.throw]
  | some found =>
      cases htop : found.isTop <;> cases htakes : found.flags.has .subchannels <;>
        simp [htop, htakes, throw, throwThe, MonadExceptOf.throw, pure, Except.pure]

theorem checkChannel_eq_ok {known : List Known} {channel : ChannelSettings} {found : Known} :
    checkChannel known channel = .ok found ↔
      ∃ info, channel.metadata = .ok info ∧ (∀ other ∈ known, other.name ≠ channel.name) ∧
        (info.flags.has .default = true → ∀ other ∈ known, other.flags.has .default = false) ∧
        (info.flags.has .password = true → channel.password ≠ none) ∧
        (∀ parent, channel.parent = some parent →
          checkParent known channel info.flags parent = .ok ()) ∧
        found = ⟨channel.name, info.flags, channel.parent.isNone⟩ := by
  unfold checkChannel
  rw [bind_eq_ok]
  refine exists_congr fun info => and_congr_right fun _ => ?_
  -- What is left to do after each of the checks, the last one first.
  extract_lets flags answer placed locked single
  have hplaced : placed () = .ok found ↔
      (∀ parent, channel.parent = some parent → checkParent known channel flags parent = .ok ()) ∧
        found = ⟨channel.name, flags, channel.parent.isNone⟩ := by
    simp only [placed, answer]
    cases channel.parent with
    | none => simp [pure, Except.pure, eq_comm]
    | some parent =>
        rw [bind_eq_ok]
        constructor
        · rintro ⟨_, hcheck, hpure⟩
          cases hpure
          refine ⟨?_, rfl⟩
          rintro _ ⟨⟩
          exact hcheck
        · rintro ⟨hcheck, rfl⟩
          exact ⟨(), hcheck parent rfl, rfl⟩
  have hlocked : locked () = .ok found ↔
      (flags.has .password = true → channel.password ≠ none) ∧ placed () = .ok found := by
    simp only [locked, throw_else_eq_ok, Bool.and_eq_true, Option.isNone_iff_eq_none, not_and,
      ne_eq]
  have hsingle : single () = .ok found ↔
      (flags.has .default = true → ∀ other ∈ known, other.flags.has .default = false) ∧
        locked () = .ok found := by
    simp only [single]
    cases hfirst : known.find? (·.flags.has .default) with
    | none =>
        have hnone := List.find?_eq_none.mp hfirst
        exact (and_iff_right fun _ other hother => Bool.eq_false_iff.mpr (hnone other hother)).symm
    | some first =>
        have hflag : first.flags.has .default = true := by simpa using List.find?_some hfirst
        rw [throw_else_eq_ok]
        refine and_congr_left fun _ => ⟨fun hnot h => absurd h hnot, fun hall h => ?_⟩
        have hother := hall h first (List.mem_of_find?_eq_some hfirst)
        rw [hflag] at hother
        cases hother
  rw [throw_else_eq_ok, hsingle, hlocked, hplaced]
  simp only [List.any_eq_true, decide_eq_true_eq, not_exists, not_and, ne_eq]
  rfl

/-- Among channels that are as they have to be, a name leads to the only channel that has it. -/
theorem Suitable.find?_eq_some {before : List ChannelSettings} (h : Suitable before)
    {name : String} {other : ChannelSettings} :
    before.find? (·.name = name) = some other ↔ other ∈ before ∧ other.name = name := by
  constructor
  · intro hfind
    exact ⟨List.mem_of_find?_eq_some hfind, by simpa using List.find?_some hfind⟩
  · rintro ⟨hmem, hname⟩
    cases hfind : before.find? (·.name = name) with
    | none =>
        have hnot := List.find?_eq_none.mp hfind other hmem
        simp [hname] at hnot
    | some first =>
        have hfirst : first.name = name := by simpa using List.find?_some hfind
        rw [List.inj_on_of_nodup_map h.nodup_names (List.mem_of_find?_eq_some hfind) hmem
          (hfirst.trans hname.symm)]

/-- What is asked of a channel, if those before were checked. -/
theorem checkChannel_known {before : List ChannelSettings} (h : Suitable before)
    {channel : ChannelSettings} {found : Known} :
    checkChannel (before.map (·.known)) channel = .ok found ↔
      Suits before channel ∧ found = channel.known := by
  have hflag {other : ChannelSettings} (hother : other ∈ before) {name : String} {flag : Flags}
      (hname : Flags.ofName? name = some flag) :
      other.known.flags.has flag = decide (name ∈ other.flags) :=
    other.has_info (h.valid hother) hname
  have hfind (parent : String) (p : Known → Prop) :
      (∃ found, (before.map (·.known)).find? (·.name = parent) = some found ∧ p found) ↔
        ∃ other ∈ before, other.name = parent ∧ p other.known := by
    have hmap : (before.map (·.known)).find? (·.name = parent) =
        (before.find? (·.name = parent)).map (·.known) := List.find?_map
    simp only [hmap, Option.map_eq_some_iff, h.find?_eq_some]
    constructor
    · rintro ⟨_, ⟨other, ⟨hmem, hname⟩, rfl⟩, hp⟩
      exact ⟨other, hmem, hname, hp⟩
    · rintro ⟨other, hmem, hname, hp⟩
      exact ⟨_, ⟨other, ⟨hmem, hname⟩, rfl⟩, hp⟩
  rw [checkChannel_eq_ok]
  constructor
  · rintro ⟨info, hinfo, hfresh, hsingle, hlocked, hplaced, rfl⟩
    obtain rfl := channel.info_eq hinfo
    refine ⟨⟨hinfo, fun other hother => ?_, ?_, ?_, ?_⟩, rfl⟩
    · exact hfresh other.known (List.mem_map_of_mem hother)
    · intro hdefault other hother
      rw [channel.has_info hinfo Flags.ofName?_default, decide_eq_true_eq] at hsingle
      have hnot := hsingle hdefault other.known (List.mem_map_of_mem hother)
      rw [hflag hother Flags.ofName?_default, decide_eq_false_iff_not] at hnot
      exact hnot
    · rw [channel.has_info hinfo Flags.ofName?_password, decide_eq_true_eq] at hlocked
      exact hlocked
    · intro parent hparent
      obtain ⟨hnot, hopen, hfound⟩ := checkParent_eq_ok.mp (hplaced parent hparent)
      rw [channel.has_info hinfo Flags.ofName?_default, decide_eq_false_iff_not] at hnot
      obtain ⟨other, hother, hname, htop, htakes⟩ := (hfind parent _).mp hfound
      rw [hflag hother Flags.ofName?_subchannels, decide_eq_true_eq] at htakes
      exact ⟨hnot, hopen, other, hother, hname, Option.isNone_iff_eq_none.mp htop, htakes⟩
  · rintro ⟨⟨hinfo, hfresh, hsingle, hlocked, hplaced⟩, rfl⟩
    refine ⟨channel.info, hinfo, ?_, ?_, ?_, ?_, rfl⟩
    · intro known hknown
      obtain ⟨other, hother, rfl⟩ := List.mem_map.mp hknown
      exact hfresh other hother
    · rw [channel.has_info hinfo Flags.ofName?_default, decide_eq_true_eq]
      intro hdefault known hknown
      obtain ⟨other, hother, rfl⟩ := List.mem_map.mp hknown
      rw [hflag hother Flags.ofName?_default, decide_eq_false_iff_not]
      exact hsingle hdefault other hother
    · rw [channel.has_info hinfo Flags.ofName?_password, decide_eq_true_eq]
      exact hlocked
    · intro parent hparent
      obtain ⟨hnot, hopen, other, hother, hname, htop, htakes⟩ := hplaced parent hparent
      refine checkParent_eq_ok.mpr ⟨?_, hopen, (hfind parent _).mpr ⟨other, hother, hname, ?_, ?_⟩⟩
      · rw [channel.has_info hinfo Flags.ofName?_default, decide_eq_false_iff_not]
        exact hnot
      · exact Option.isNone_iff_eq_none.mpr htop
      · rw [hflag hother Flags.ofName?_subchannels, decide_eq_true_eq]
        exact htakes

/-- What is asked of channels that come after others. -/
theorem checkChannels_eq_ok {before later : List ChannelSettings} (h : Suitable before) :
    checkChannels (before.map (·.known)) later = .ok () ↔ Suitable (before ++ later) := by
  induction later generalizing before with
  | nil =>
      rw [List.append_nil]
      exact ⟨fun _ => h, fun _ => rfl⟩
  | cons channel later ih =>
      have hsplit : before ++ channel :: later = (before ++ [channel]) ++ later := by simp
      rw [checkChannels, bind_eq_ok, hsplit]
      have hmap : before.map (·.known) ++ [channel.known] =
          (before ++ [channel]).map (·.known) := by simp
      constructor
      · rintro ⟨found, hfound, hrest⟩
        obtain ⟨hsuits, rfl⟩ := (checkChannel_known h).mp hfound
        rw [hmap] at hrest
        exact (ih (h.snoc hsuits)).mp hrest
      · intro hall
        have hsuits := hall.of_append.last
        refine ⟨channel.known, (checkChannel_known h).mpr ⟨hsuits, rfl⟩, ?_⟩
        rw [hmap]
        exact (ih (h.snoc hsuits)).mpr hall

/-- What is asked of all settings. -/
theorem check_eq_ok {settings : Settings} : settings.check = .ok () ↔
    isLogLevel settings.log.level = true ∧ isLogFormat settings.log.format = true ∧
      Suitable settings.channels := by
  have hchannels := @checkChannels_eq_ok [] settings.channels suitable_nil
  unfold Settings.check
  simp only [throw_else_eq_ok, Bool.not_eq_true', Bool.not_eq_false]
  exact and_congr_right fun _ => and_congr_right fun _ => hchannels

end Config

end ChannelServer
