import ChannelServer.Ident

/-!
# Privileges

Who may do what in a group of channels. A record says it for one identity in one top channel and
holds for the whole group below it. An identity is either a registered account, whose records can
be stored, or a connected player, whose records end with the session.
-/

namespace ChannelServer

/-- The rights of an identity in a group of channels, one bit each. Bits without a name are kept. -/
structure Rights where
  bits : UInt16
deriving DecidableEq, Repr, Inhabited

namespace Rights

/-- No right at all. -/
def none : Rights := ⟨0⟩

/-- Administers the channel. -/
def admin : Rights := ⟨0x0001⟩

/-- Operates the channel. -/
def operator : Rights := ⟨0x0002⟩

/-- May speak in a moderated channel. -/
def voice : Rights := ⟨0x0004⟩

/-- Becomes operator on joining. -/
def autoOperator : Rights := ⟨0x0008⟩

/-- Gets voice on joining. -/
def autoVoice : Rights := ⟨0x0010⟩

/-- All rights of either set. -/
def union (p q : Rights) : Rights := ⟨p.bits ||| q.bits⟩

/-- The rights of the first set that are not in the second. -/
def without (p q : Rights) : Rights := ⟨p.bits &&& ~~~q.bits⟩

/-- Every right of the second set is in the first. -/
def has (p q : Rights) : Bool := p.bits &&& q.bits == q.bits

/-- The five rights that have a name. -/
def named : Rights :=
  admin.union (operator.union (voice.union (autoOperator.union autoVoice)))

/-- Only the rights that have a name. -/
def known (p : Rights) : Rights := ⟨p.bits &&& named.bits⟩

end Rights

/-- Whom a privilege record is about. -/
inductive Identity where
  | registered (account : AccountId)
  | unregistered (player : PlayerId)
deriving DecidableEq, Repr

/-- The account of a registered identity. -/
def Identity.account? : Identity → Option AccountId
  | registered account => some account
  | unregistered _ => none

/-- Only registered identities can be stored. -/
def Identity.isRegistered (identity : Identity) : Bool :=
  identity.account?.isSome

/-- The rights of one identity in the group of one top channel. -/
structure Record where
  channel : ChannelId
  identity : Identity
  rights : Rights := .none
deriving DecidableEq, Repr

end ChannelServer
