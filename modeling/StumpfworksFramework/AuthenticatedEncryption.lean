import StumpfworksFramework.ByteStrings

/-!
# Authenticated encryption with associated data

The interface of a cipher under one fixed key. Opening undoes sealing under the
same nonce and associated data. That nothing else opens cannot be a law of two
functions, since a function opens every valid ciphertext whether or not anyone
sealed it; it is an assumption on the strings that are actually presented for
opening, relative to the calls made so far.
-/

namespace AuthenticatedEncryption

open ByteStrings

structure Aead (nonceSize overhead : Nat) where
  sealBytes : (nonce plaintext additionalData : Bytes) → Bytes
  openBytes : (nonce ciphertext additionalData : Bytes) → Option Bytes
  length_sealBytes : ∀ n p a, (sealBytes n p a).length = p.length + overhead
  open_sealBytes : ∀ n p a, n.length = nonceSize → openBytes n (sealBytes n p a) a = some p

/-- The arguments of one sealing. -/
structure SealCall where
  nonce : Bytes
  plaintext : Bytes
  additionalData : Bytes
  deriving DecidableEq

variable {nonceSize overhead : Nat}

/-- What is presented for opening fails to open unless one of the calls produced it. -/
def Aead.Authentic (A : Aead nonceSize overhead) (calls : List SealCall)
    (nonce ciphertext additionalData : Bytes) : Prop :=
  ∀ p, A.openBytes nonce ciphertext additionalData = some p →
    ∃ call ∈ calls, call.nonce = nonce ∧ call.additionalData = additionalData ∧
      A.sealBytes call.nonce call.plaintext call.additionalData = ciphertext

/-- What opens is the plaintext of a call with the same nonce and associated data. -/
theorem Aead.Authentic.sealed {A : Aead nonceSize overhead} {calls : List SealCall}
    {n c a p : Bytes} (authentic : A.Authentic calls n c a) (size : n.length = nonceSize)
    (opened : A.openBytes n c a = some p) :
    (⟨n, p, a⟩ : SealCall) ∈ calls ∧ A.sealBytes n p a = c := by
  obtain ⟨⟨_, p', _⟩, made, rfl, rfl, rfl⟩ := authentic p opened
  rw [A.open_sealBytes _ _ _ size] at opened
  cases opened
  exact ⟨made, rfl⟩

/-- A cipher with one known ciphertext; every other plaintext is followed by a tag of zeros. -/
def pinnedAead (call : SealCall) (ciphertext : Bytes)
    (size : ciphertext.length = call.plaintext.length + overhead)
    (tag : ciphertext.drop call.plaintext.length ≠ List.replicate overhead 0) :
    Aead nonceSize overhead where
  sealBytes n p a :=
    if (⟨n, p, a⟩ : SealCall) = call then ciphertext else p ++ List.replicate overhead 0
  openBytes n c a :=
    if n = call.nonce ∧ c = ciphertext ∧ a = call.additionalData then some call.plaintext
    else if c.drop (c.length - overhead) = List.replicate overhead 0 then
      some (c.take (c.length - overhead))
    else none
  length_sealBytes n p a := by
    split
    · rename_i same
      rw [size, ← same]
    · simp
  open_sealBytes n p a _ := by
    split
    · rename_i same
      subst same
      simp
    · rename_i other
      have different : ¬ (n = call.nonce ∧ p ++ List.replicate overhead 0 = ciphertext ∧
          a = call.additionalData) := by
        rintro ⟨rfl, rfl, rfl⟩
        have lengths : p.length = call.plaintext.length := by simpa using size
        rw [← lengths, List.drop_left] at tag
        exact tag rfl
      rw [if_neg different]
      simp

end AuthenticatedEncryption
