import ChannelServer.Fault

/-!
# Channel passwords

A password is kept in a buffer of 30 bytes that is filled up with NUL bytes; its content ends at
the first of them. One byte of the buffer is always NUL, so at most 29 bytes fit, and a password
with a NUL byte inside would be cut short and is refused. `Password.content_ofBytes` states that
nothing else is lost.
-/

namespace ChannelServer

/-- The size of the buffer. -/
def Password.bufferSize : Nat := 30

/-- A password in its buffer. -/
structure Password where
  buffer : List UInt8
  length_buffer : buffer.length = Password.bufferSize
deriving DecidableEq

namespace Password

/-- The number of bytes that fit beside the final NUL. -/
def maxLength : Nat := bufferSize - 1

/-- Fills the buffer with the given bytes and, after them, with NUL. -/
def fill (bytes : List UInt8) (h : bytes.length ≤ maxLength) : Password where
  buffer := bytes ++ List.replicate (bufferSize - bytes.length) 0
  length_buffer := by
    simp only [List.length_append, List.length_replicate]
    simp only [maxLength, bufferSize] at h ⊢
    omega

/-- The buffer of no password. -/
def empty : Password := fill [] (Nat.zero_le _)

instance : Inhabited Password := ⟨empty⟩

/-- The password of the given bytes. The length is looked at first. -/
def ofBytes (bytes : List UInt8) : Except Fault Password :=
  if h : bytes.length ≤ maxLength then
    if 0 ∈ bytes then .error (.badArgument .nulInPassword) else .ok (fill bytes h)
  else
    .error (.badArgument (.passwordTooLong bytes.length maxLength))

/-- The bytes of a password, up to the first NUL. -/
def content (password : Password) : List UInt8 :=
  password.buffer.takeWhile (· != 0)

/-- A candidate is right when it is the password, byte for byte. -/
def accepts (password : Password) (candidate : List UInt8) : Bool :=
  password.content == candidate

/-- The written form hides the password. -/
instance : ToString Password := ⟨fun _ => "Passwort(***)"⟩

instance : Repr Password := ⟨fun password _ => toString password⟩

/-- What fits is read back unchanged. -/
theorem content_fill {bytes : List UInt8} (hLength : bytes.length ≤ maxLength)
    (hNul : 0 ∉ bytes) : (fill bytes hLength).content = bytes := by
  have hBytes : ∀ b ∈ bytes, (b != 0) = true := fun b hb =>
    bne_iff_ne.2 fun h => hNul (h ▸ hb)
  unfold content fill
  rw [List.takeWhile_append_of_pos hBytes]
  cases bufferSize - bytes.length <;> simp [List.replicate_succ]

/-- A password that is accepted at all is read back unchanged. -/
theorem content_ofBytes {bytes : List UInt8} {password : Password}
    (h : ofBytes bytes = .ok password) : password.content = bytes := by
  unfold ofBytes at h
  split at h
  · split at h
    · cases h
    · cases h
      exact content_fill _ ‹_›
  · cases h

/-- The bytes that can be a password. -/
theorem exists_ofBytes {bytes : List UInt8} :
    (∃ password, ofBytes bytes = .ok password) ↔ bytes.length ≤ maxLength ∧ 0 ∉ bytes := by
  unfold ofBytes
  by_cases hlength : bytes.length ≤ maxLength <;> by_cases hnul : 0 ∈ bytes <;>
    simp [hlength, hnul]

end Password

end ChannelServer
