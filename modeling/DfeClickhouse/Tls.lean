import DfeClickhouse.Error
import DfeClickhouse.Library.Reader

/-!
# TLS trust

A description of what to trust is made into one store of roots.  There is no store
without roots, and where the description is exclusive there are none in it but those of
its files.
-/

namespace DfeClickhouse

open Library

/-- What to trust, of which a configuration is made when a transport is built. -/
structure TlsTrust where
  /-- Load the roots of the operating system. -/
  nativeRoots : Bool
  /-- Include the bundle that is compiled in. -/
  webpkiRoots : Bool
  /-- Files of root certificates. -/
  extraRoots : List String
  /-- Files of intermediate certificates, which are anchors too. -/
  extraIntermediates : List String
  /-- Trust the files alone. -/
  exclusive : Bool

/-- Both kinds of roots and no files. -/
def TlsTrust.default : TlsTrust where
  nativeRoots := true
  webpkiRoots := true
  extraRoots := []
  extraIntermediates := []
  exclusive := false

/-- A configuration that the caller built, or a description to resolve. -/
inductive TlsConfigSource (Config : Type)
  | explicit (config : Config)
  | trust (trust : TlsTrust)

/-- What the host and the TLS library have when a configuration is built. -/
structure TlsHost (Anchor Config : Type) where
  /-- The roots of the operating system that parse. -/
  nativeCerts : List Anchor
  /-- The bundle that is compiled in. -/
  tlsServerRoots : List Anchor
  /-- The certificates of a file that parse, or why it cannot be read. -/
  pemFile : String → Except String (List Anchor)
  /-- The library's configuration for a store. -/
  clientConfig : List Anchor → Except String Config

namespace TlsHost

variable {Anchor Config : Type} (host : TlsHost Anchor Config)

/-- Add every usable certificate of a file, of which there has to be one. -/
def addPemFileCerts (store : List Anchor) (path : String) : Except Error (List Anchor) :=
  match host.pemFile path with
  | .error reason => .error (.custom ("tls: cannot read CA file " ++ path ++ ": " ++ reason))
  | .ok certs =>
      if certs.isEmpty then .error (.custom ("tls: no usable certificates in CA file " ++ path))
      else .ok (store ++ certs)

/-- The roots a description trusts beside its files. -/
def broadRoots (trust : TlsTrust) : Except Error (List Anchor) :=
  if !trust.exclusive then
    .ok ((if trust.nativeRoots then host.nativeCerts else []) ++
      if trust.webpkiRoots then host.tlsServerRoots else [])
  else if trust.extraRoots.isEmpty && trust.extraIntermediates.isEmpty then
    .error (.custom "tls: exclusive trust requested but no explicit CA files were supplied")
  else
    .ok []

/-- Assemble the anchors. -/
def buildRootStore (trust : TlsTrust) : Except Error (List Anchor) := do
  let broad ← host.broadRoots trust
  let store ← trust.extraRoots.foldlM host.addPemFileCerts broad
  let store ← trust.extraIntermediates.foldlM host.addPemFileCerts store
  if store.isEmpty then
    .error (.custom "tls: resulting trust store is empty (no roots loaded)")
  else
    return store

def buildConfigWithRoots (roots : List Anchor) : Except Error Config :=
  (host.clientConfig roots).mapError fun reason => .custom ("tls: rustls config: " ++ reason)

/-- Resolve a source. -/
def buildClientConfig : TlsConfigSource Config → Except Error Config
  | .explicit config => .ok config
  | .trust trust => do
      let roots ← host.buildRootStore trust
      host.buildConfigWithRoots roots

/-- The file can be read and has these usable certificates. -/
def Supplies (path : String) (certs : List Anchor) : Prop :=
  host.pemFile path = .ok certs ∧ certs ≠ []

variable {host}

theorem addPemFileCerts_ok_iff {store result : List Anchor} {path : String} :
    host.addPemFileCerts store path = .ok result ↔
      ∃ certs, host.Supplies path certs ∧ result = store ++ certs := by
  unfold addPemFileCerts Supplies
  cases host.pemFile path with
  | error reason => simp
  | ok certs =>
      cases certs with
      | nil => simp
      | cons cert certs => simp [eq_comm]

theorem addFiles_ok_iff {store result : List Anchor} {paths : List String} :
    paths.foldlM host.addPemFileCerts store = .ok result ↔
      ∃ parts, List.Forall₂ host.Supplies paths parts ∧ result = store ++ parts.flatten := by
  induction paths generalizing store with
  | nil =>
      rw [List.foldlM_nil]
      constructor
      · intro done
        cases done
        exact ⟨[], .nil, (List.append_nil _).symm⟩
      · rintro ⟨parts, none, rfl⟩
        cases none
        rw [List.flatten_nil, List.append_nil]
        rfl
  | cons path paths ih =>
      rw [List.foldlM_cons, Reader.ok_bind_iff]
      constructor
      · rintro ⟨next, first, rest⟩
        obtain ⟨certs, supplied, rfl⟩ := addPemFileCerts_ok_iff.mp first
        obtain ⟨parts, others, rfl⟩ := ih.mp rest
        exact ⟨certs :: parts, .cons supplied others, by simp⟩
      · rintro ⟨parts, supplied, rfl⟩
        cases supplied with
        | cons first others =>
            refine ⟨_, addPemFileCerts_ok_iff.mpr ⟨_, first, rfl⟩, ih.mpr ⟨_, others, ?_⟩⟩
            simp

/-- Every file supplies certificates, and the store holds these behind the roots of the host
that the description admits. -/
def Assembles (host : TlsHost Anchor Config) (trust : TlsTrust) (store : List Anchor) : Prop :=
  store ≠ [] ∧ ∃ parts,
    List.Forall₂ host.Supplies (trust.extraRoots ++ trust.extraIntermediates) parts ∧
    store = (if trust.exclusive then [] else
      (if trust.nativeRoots then host.nativeCerts else []) ++
        if trust.webpkiRoots then host.tlsServerRoots else []) ++ parts.flatten

/-- The check at the end covers that of an exclusive description without files. -/
theorem buildRootStore_ok_iff_of_broad {trust : TlsTrust} {store broad : List Anchor}
    (broadened : host.broadRoots trust = .ok broad) :
    host.buildRootStore trust = .ok store ↔ store ≠ [] ∧ ∃ parts,
      List.Forall₂ host.Supplies (trust.extraRoots ++ trust.extraIntermediates) parts ∧
      store = broad ++ parts.flatten := by
  have files : host.buildRootStore trust =
      ((trust.extraRoots ++ trust.extraIntermediates).foldlM host.addPemFileCerts broad >>=
        fun store => if store.isEmpty then
          .error (.custom "tls: resulting trust store is empty (no roots loaded)")
        else pure store) := by
    rw [buildRootStore, broadened, List.foldlM_append, bind_assoc]
    rfl
  rw [files, Reader.ok_bind_iff]
  constructor
  · rintro ⟨assembled, added, checked⟩
    obtain ⟨parts, supplied, rfl⟩ := addFiles_ok_iff.mp added
    split at checked
    · cases checked
    · rename_i some
      cases checked
      exact ⟨fun none => some (by rw [none]; rfl), parts, supplied, rfl⟩
  · rintro ⟨some, parts, supplied, rfl⟩
    refine ⟨_, addFiles_ok_iff.mpr ⟨parts, supplied, rfl⟩, if_neg ?_⟩
    rwa [List.isEmpty_iff]

/-- A store is built exactly if it is what the description assembles. -/
theorem buildRootStore_ok_iff {trust : TlsTrust} {store : List Anchor} :
    host.buildRootStore trust = .ok store ↔ host.Assembles trust store := by
  cases exclusive : trust.exclusive with
  | false =>
      unfold Assembles
      rw [exclusive]
      exact buildRootStore_ok_iff_of_broad (by rw [broadRoots, exclusive]; rfl)
  | true =>
      unfold Assembles
      rw [exclusive]
      by_cases files : trust.extraRoots.isEmpty && trust.extraIntermediates.isEmpty
      · -- There is nothing to assemble, and the store would be empty.
        have none : trust.extraRoots ++ trust.extraIntermediates = [] := by
          rw [Bool.and_eq_true, List.isEmpty_iff, List.isEmpty_iff] at files
          rw [files.1, files.2]
          rfl
        have refused : host.broadRoots trust = .error
            (.custom "tls: exclusive trust requested but no explicit CA files were supplied") := by
          rw [broadRoots, exclusive]
          exact if_pos files
        rw [buildRootStore, refused, none]
        constructor
        · intro built
          cases built
        · rintro ⟨some, parts, supplied, rfl⟩
          cases supplied
          exact absurd rfl some
      · exact buildRootStore_ok_iff_of_broad (by rw [broadRoots, exclusive]; exact if_neg files)

end TlsHost

end DfeClickhouse
