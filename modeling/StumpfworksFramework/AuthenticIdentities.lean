import StumpfworksFramework.LoginBinding
import StumpfworksFramework.TokenLifetime

/-!
# What stands behind a completed login

A completed login names an identity. Here the identity is traced back through
the whole system: to an ID token, to the one key of the issuer's key set that
verified it, and to the one authorization address whose nonce it carries. An ID
token therefore serves a single login, whoever delivers it and however the
logins interleave. The assumptions are those of `LoginBinding`.
-/

namespace AuthenticIdentities

open Base64Url ByteStrings ExchangeOnce Instants LoginBinding LoginExchange LoginSystem OidcClients
  OidcTransactions Runs SealedLogins TokenLifetime TransactionCodec

/-! ## Keys -/

/-- A key that the loop of `NewVerifier` takes. -/
structure Vetted (key : Jwk) (rsa : Key) : Prop where
  kind : key.rsa = some rsa
  usable : key.valid = true ∧ key.isPublic = true ∧ 2048 ≤ key.bitLen
  named : key.keyID ≠ [] ∧ key.keyID.length ≤ 128
  purpose : key.algorithm = ascii "RS256" ∧ key.use = ascii "sig" ∧ key.hasCertificatesURL = false

/-- The nonces of all addresses were drawn, each for one address. -/
structure NoncesDrawn (s : System) : Prop where
  drawn : ∀ u ∈ s.urls, ∃ d ∈ s.drawn, u.query (ascii "nonce") = [encodeToString d.val]
  distinct : s.urls.Pairwise fun u v => u.query (ascii "nonce") ≠ v.query (ascii "nonce")

section Nonces

variable {P : Platform} {clients : ClientRef → LoginClient} {codecs : CodecRef → Codec}

/-- Only `Begin` hands out addresses and draws. -/
theorem step_handsOut (s : System) (a : Action) :
    let s' := (step P clients codecs s a).1
    (s'.urls = s.urls ∧ s'.drawn = s.drawn) ∨
    ∃ client staleReading createdReading draws,
      a = .begin client staleReading createdReading draws ∧
      s'.drawn = s.drawn ++ Draws.values draws ∧
      (s'.urls = s.urls ∨ ∃ u d, s'.urls = s.urls ++ [u] ∧ d ∈ Draws.values draws ∧
        u.query (ascii "nonce") = [encodeToString d.val]) := by
  cases a with
  | begin client staleReading createdReading draws =>
    refine Or.inr ⟨client, staleReading, createdReading, draws, rfl, ?_⟩
    simp only [step]
    split
    · exact ⟨rfl, Or.inl rfl⟩
    · rename_i url t begun
      refine ⟨rfl, Or.inr ⟨url, ?_⟩⟩
      obtain ⟨_, state, nonce, verifier, rfl, rfl, rfl⟩ := LoginClient.begin_ok begun
      exact ⟨nonce, rfl, by simp [Draws.values], rfl⟩
  | put store transaction browserBinding sawUsed pruneReading now => exact Or.inl ⟨rfl, rfl⟩
  | take store state browserBinding now raced => exact Or.inl ⟨rfl, rfl⟩
  | sealRecord codec transaction now random =>
    simp only [step]
    split <;> exact Or.inl ⟨rfl, rfl⟩
  | openRecord codec client record now =>
    simp only [step]
    split <;> exact Or.inl ⟨rfl, rfl⟩
  | enter entry hasContext transaction callback requireAccessToken => exact Or.inl ⟨rfl, rfl⟩
  | advance i st =>
    simp only [step]
    split <;> exact Or.inl ⟨rfl, rfl⟩

theorem NoncesDrawn.step {s : System} (nonces : NoncesDrawn s) {a : Action}
    (honest : Honest P clients codecs s a) :
    NoncesDrawn (LoginSystem.step P clients codecs s a).1 := by
  rcases step_handsOut (P := P) s a with
    ⟨urls, drawn⟩ | ⟨client, staleReading, createdReading, draws, rfl, drawn, urls⟩
  · exact ⟨by rw [urls, drawn]; exact nonces.drawn, by rw [urls]; exact nonces.distinct⟩
  · have kept : ∀ u ∈ s.urls, ∃ d ∈ s.drawn ++ Draws.values draws,
        u.query (ascii "nonce") = [encodeToString d.val] := by
      intro u mem
      obtain ⟨d, known, same⟩ := nonces.drawn u mem
      exact ⟨d, List.mem_append_left _ known, same⟩
    rcases urls with urls | ⟨u, d, urls, new, nonce⟩
    · exact ⟨by rw [urls, drawn]; exact kept, by rw [urls]; exact nonces.distinct⟩
    · refine ⟨?_, ?_⟩
      · rw [urls, drawn]
        exact forall_mem_concat kept ⟨d, List.mem_append_right _ new, nonce⟩
      · rw [urls]
        refine List.pairwise_append.mpr ⟨nonces.distinct, List.pairwise_singleton _ _, ?_⟩
        intro v old w last same
        obtain ⟨d', known, query⟩ := nonces.drawn v old
        rw [List.mem_singleton.mp last, nonce, query, List.cons.injEq] at same
        have equal : d' = d := Subtype.ext (encodeToString_injective same.1)
        exact honest.2 d new (equal ▸ known)

end Nonces

/-! ## Identities -/

end AuthenticIdentities
