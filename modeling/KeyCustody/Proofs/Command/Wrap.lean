import KeyCustody.Proofs.KeyFile
import KeyCustody.Proofs.Package

/-!
# Wrapping a key file

Up to the write, wrapping only looks at two files and prints, and what it then writes is settled by
these files and the random octets. So it can be told from the files alone whether wrapping succeeds,
and what can be recovered from its output.

## Main definitions

* `prepareWrap` — wrapping up to the write
* `WrapFlags.package`, `WrapFlags.content` — the package for the keys in the files of a tree, and
  what is written of it

## Main results

* `wrapFile_eq`, `Rehearsal.wrapFile_apply` — what a wrapping command does
* `WrapFlags.package_eq_ok_iff` — which package is written
* `wrapFile_recoverable` — the key can be recovered from what is written
-/

namespace KeyCustody

variable {t : FileTree} {path : String} {secrets : PackageSecrets} {flags : WrapFlags} {p : Package}

section Preparation

variable {m : Type → Type} [Monad m] [Host m]

open Host

/-- Wraps a key file, and writes nothing yet. -/
def prepareWrap (secrets : PackageSecrets) (flags : WrapFlags) : CommandM m Package := do
  say ("Wrapping key: " ++ flags.key)
  require flags.key
  let (key, _) ← loadKey flags.key
  let wrappingKey ← loadWrappingKey flags.wrappingKey
  say ("  Key type: " ++ key.keyType.name)
  say ("  Wrapping key: " ++ flags.wrappingKey)
  orFail (prepareImport secrets key wrappingKey)

/-- What is written of a package. -/
def WrapFlags.content (flags : WrapFlags) (p : Package) : Octets :=
  if flags.base64 then p.base64 else p.octets

/-- Wrapping ends with the write. -/
theorem wrapFile_eq [LawfulMonad m] (secrets : PackageSecrets) (flags : WrapFlags) :
    (wrapFile secrets flags : CommandM m String) = prepareWrap secrets flags >>= fun p =>
      deliver flags.outputPath (flags.content p) (packageLines p flags.base64) := by
  simp only [wrapFile, prepareWrap, deliver, WrapFlags.content, bind_assoc]

end Preparation

/-- The public-key document in a file. -/
def FileTree.wrappingKey (t : FileTree) (path : String) : Except CommandError Octets := do
  t.require path
  let content ← (t.read path).mapError .io
  wrappingDocument content

theorem FileTree.wrappingKey_eq_ok_iff {document : Octets} : t.wrappingKey path = .ok document ↔
    ∃ content, t.read path = .ok content ∧ wrappingDocument content = .ok document := by
  simp only [wrappingKey, Outcome.bind_eq_ok_iff, Outcome.mapError_eq_ok_iff]
  constructor
  · rintro ⟨-, -, h⟩
    exact h
  · rintro ⟨content, hread, h⟩
    exact ⟨(), require_of_read hread, content, hread, h⟩

/-- The package for the private key in one file under the wrapping key in another. -/
def WrapFlags.package (flags : WrapFlags) (secrets : PackageSecrets) (t : FileTree) :
    Except CommandError Package := do
  t.require flags.key
  let (key, _) ← (t.key flags.key).mapError .key
  let wrappingKey ← t.wrappingKey flags.wrappingKey
  (prepareImport secrets key wrappingKey).mapError .key

theorem WrapFlags.package_eq_ok_iff : flags.package secrets t = .ok p ↔
    ∃ content k wrapping document, t.read flags.key = .ok content ∧
      PrivateKey.ofFile content = .ok k ∧ t.read flags.wrappingKey = .ok wrapping ∧
      wrappingDocument wrapping = .ok document ∧ prepareImport secrets k document = .ok p := by
  simp only [package, Outcome.bind_eq_ok_iff, Outcome.mapError_eq_ok_iff, Prod.exists,
    FileTree.key_eq_ok_iff, FileTree.wrappingKey_eq_ok_iff]
  constructor
  · rintro ⟨-, -, k, _, ⟨content, hread, hk, rfl⟩, document, ⟨wrapping, hwrapping, hdocument⟩, hp⟩
    exact ⟨content, k, wrapping, document, hread, hk, hwrapping, hdocument, hp⟩
  · rintro ⟨content, k, wrapping, document, hread, hk, hwrapping, hdocument, hp⟩
    exact ⟨(), FileTree.require_of_read hread, k, content.length, ⟨content, hread, hk, rfl⟩,
      document, ⟨wrapping, hwrapping, hdocument⟩, hp⟩

namespace Rehearsal

theorem inspects_loadWrappingKey (path : String) :
    Inspects (loadWrappingKey path) (·.wrappingKey path) := by
  refine (inspects_require path).bind fun _ => (inspects_readFile path).bind fun content => ?_
  apply inspects_of_apply
  intro s
  cases wrappingDocument content <;> rfl

theorem inspects_prepareWrap (secrets : PackageSecrets) (flags : WrapFlags) :
    Inspects (prepareWrap secrets flags) (flags.package secrets) := by
  have hsteps : Inspects (prepareWrap secrets flags) _ :=
    (inspects_say _).bind fun _ => (inspects_require _).bind fun _ =>
      (inspects_loadKey _).bind fun _ => (inspects_loadWrappingKey _).bind fun _ =>
        (inspects_say _).bind fun _ => (inspects_say _).bind fun _ => inspects_orFail _
  exact hsteps

/-- A wrapping command writes one file, or it fails and writes none. -/
theorem wrapFile_apply (secrets : PackageSecrets) (flags : WrapFlags) (s : Scene) :
    ∃ text, (wrapFile secrets flags : CommandM Rehearsal String) s =
      match flags.package secrets s.files with
      | .error e => (.error e, s.printing text)
      | .ok p =>
        match s.files.write flags.outputPath (flags.content p) with
        | .error fault => (.error (.io fault), s.printing text)
        | .ok files => (.ok flags.outputPath, { s with files }.printing text) := by
  rw [wrapFile_eq]
  obtain ⟨text, hprepare⟩ := (inspects_prepareWrap secrets flags).bind_apply (fun p =>
    Host.deliver flags.outputPath (flags.content p) (packageLines p flags.base64)) s
  rw [hprepare]
  cases flags.package secrets s.files with
  | error e => exact ⟨text, rfl⟩
  | ok p =>
    obtain ⟨more, hdeliver⟩ := deliver_apply flags.outputPath (flags.content p)
      (packageLines p flags.base64) (s.printing text)
    dsimp only
    rw [hdeliver, Scene.files_printing]
    cases s.files.write flags.outputPath (flags.content p) with
    | error fault => exact ⟨text, rfl⟩
    | ok files =>
      exact ⟨text ++ more, congrArg (Prod.mk _) (Scene.printing_printing { s with files } text more)⟩

/-- With a package and a place to put it, wrapping succeeds. -/
theorem exists_wrapFile {s : Scene} (hp : flags.package secrets s.files = .ok p)
    (houtput : s.files.IsWritable flags.outputPath) : ∃ s',
      (wrapFile secrets flags : CommandM Rehearsal String) s = (.ok flags.outputPath, s') ∧
      s.files.IsWritten flags.outputPath (flags.content p) s'.files := by
  obtain ⟨files, hfiles⟩ := FileTree.exists_write_iff.mpr houtput
  obtain ⟨text, hrun⟩ := wrapFile_apply secrets flags s
  rw [hp] at hrun
  dsimp only at hrun
  rw [hfiles] at hrun
  exact ⟨_, hrun, FileTree.isWritten_of_write hfiles⟩

end Rehearsal

/-! ## Recovery -/

section Recovery

variable {w : Rsa.PrivateKey} {k : PrivateKey} {document : Octets}

/-- Under a wrapping key with room for an ephemeral key, the document of a private key is wrapped,
and it is recovered from the package. -/
theorem exists_prepareImport (hsecrets : secrets.ephemeralKey.length = Package.ephemeralKeyLength)
    (hseed : secrets.seed.length = 20) (hprimes : w.HasDistinctPrimes) (hsize : 74 ≤ w.size)
    (hbits : w.publicKey.bits ≤ Rsa.PublicKey.maxBits) (hencode : k.encode = .ok document)
    (hne : document ≠ []) (hlong : document.length < 2 ^ 32) :
    ∃ p, prepareImport secrets k w.publicKey.encode = .ok p ∧
      Package.unwrap w p.octets = .ok document := by
  have hroom : secrets.ephemeralKey.length + 42 ≤ w.publicKey.size := by
    rw [hsecrets, Package.ephemeralKeyLength]
    exact hsize
  obtain ⟨p, hwrap⟩ := (Package.exists_wrapWith_iff secrets w.publicKey hlong).mpr ⟨hne, hroom⟩
  refine ⟨p, ?_, Package.unwrap_of_wrapWith hprimes hsecrets hseed hwrap⟩
  have hread := Rsa.PublicKey.decode?_encode hbits
  rw [prepareImport, Outcome.bind_eq_ok_iff]
  exact ⟨document, Outcome.mapError_eq_ok_iff.mpr hencode, Outcome.mapError_eq_ok_iff.mpr
    (Package.wrap_eq_ok_iff.mpr ⟨w.publicKey, hread, hwrap⟩)⟩

/-- What is written of a package holds its octets, as they are or in base64. -/
theorem WrapFlags.content_holds (flags : WrapFlags) (p : Package) :
    if flags.base64 then Base64.decode? (flags.content p) = some p.octets
    else flags.content p = p.octets := by
  rw [content]
  split_ifs
  · exact Base64.decode?_eq_some_iff.mpr rfl
  · rfl

/-- A wrapped key file can be done without. Take any key file whose key can be written, as a document
whose length a package can tell, any wrapping key of distinct primes whose modulus is within the
bounds, as a document or in armor, any output that can be written, and any random octets. Then
wrapping succeeds, and what is written, as it is or in base64, unwraps to the document of the key,
from which the same key is loaded again. The same document of the wrapping key is used in either
form. -/
theorem wrapFile_recoverable (secrets : PackageSecrets)
    (hsecrets : secrets.ephemeralKey.length = Package.ephemeralKeyLength)
    (hseed : secrets.seed.length = 20) (flags : WrapFlags) (s : Scene) (content : Octets)
    (hkey : s.files.read flags.key = .ok content) (k : PrivateKey)
    (hload : PrivateKey.ofFile content = .ok k) (document : Octets)
    (hencode : k.encode = .ok document) (hlong : document.length < 2 ^ 32) (w : Rsa.PrivateKey)
    (hp : w.p.Prime) (hq : w.q.Prime) (hpq : w.p ≠ w.q) (hsize : 74 ≤ w.size)
    (hbits : w.publicKey.bits ≤ Rsa.PublicKey.maxBits)
    (hwrapping : s.files.read flags.wrappingKey = .ok w.publicKey.encode ∨
      s.files.read flags.wrappingKey = .ok w.publicKey.document.armored)
    (houtput : s.files.IsWritable flags.outputPath) :
    ∃ s' written octets,
      (wrapFile secrets flags : CommandM Rehearsal String) s = (.ok flags.outputPath, s') ∧
      s'.files.read flags.outputPath = .ok written ∧
      (if flags.base64 then Base64.decode? written = some octets else written = octets) ∧
      Package.unwrap w octets = .ok document ∧
      (∃ again, PrivateKey.ofOctets document = .ok again ∧ again = k ∧
        again.keyType = k.keyType ∧ again.fingerprint = k.fingerprint) ∧
      (loadWrappingKey flags.wrappingKey : CommandM Rehearsal Octets) s =
        (.ok w.publicKey.encode, s) := by
  -- From here on it makes no difference in which form the wrapping key is at hand.
  obtain ⟨wrapping, hread, hdocument⟩ : ∃ wrapping,
      s.files.read flags.wrappingKey = .ok wrapping ∧
        wrappingDocument wrapping = .ok w.publicKey.encode := by
    rcases hwrapping with hread | hread
    · exact ⟨_, hread, wrappingDocument_encode w.publicKey⟩
    · exact ⟨_, hread, wrappingDocument_armored hbits⟩
  have hagain : PrivateKey.ofOctets document = .ok k :=
    PrivateKey.ofOctets_encode
      (PrivateKey.isCountable_of_encode (hlong.trans (by decide)) hencode) hencode
  have hne : document ≠ [] := by
    rintro rfl
    exact absurd (PrivateKey.isElement_of_ofOctets hagain) (by decide)
  obtain ⟨p, himport, hunwrap⟩ :=
    exists_prepareImport hsecrets hseed ⟨hp, hq, hpq⟩ hsize hbits hencode hne hlong
  have hpackage : flags.package secrets s.files = .ok p :=
    WrapFlags.package_eq_ok_iff.mpr ⟨content, k, wrapping, _, hkey, hload, hread, hdocument, himport⟩
  obtain ⟨s', hrun, hwritten⟩ := Rehearsal.exists_wrapFile hpackage houtput
  refine ⟨s', _, p.octets, hrun, hwritten.read_eq, flags.content_holds p, hunwrap,
    ⟨k, hagain, rfl, rfl, rfl⟩, ?_⟩
  rw [Rehearsal.loadWrappingKey_of_read hread, hdocument]

/-- A wrapping key of two Mersenne primes in armor, and the package next to the key file. -/
theorem wrapFile_recoverable_armored :
    let k : PrivateKey := .rsa ⟨⟨55, 3, rfl, rfl, by decide, by decide, by decide⟩, 7, 5, 11,
      by decide, by decide, rfl, rfl, rfl⟩
    let document := PrivateKeyDocument.encode
      ⟨Rsa.algorithm, Rsa.encodeNaturals [0, 55, 3, 7, 5, 11, 3, 7, 1], none⟩
    let w := Rsa.PrivateKey.mersenne
    let s := Scene.start ⟨[(["keys"], .directory), (["keys", "a.der"], .file document),
      (["wrapping.pem"], .file w.publicKey.document.armored)]⟩ fun _ =>
        ⟨.ok (), fun _ => .ok [], none⟩
    ∃ s' written octets,
      (wrapFile ⟨List.replicate 32 0x3c, List.replicate 20 0x5a⟩
        ⟨"keys/a.der", "wrapping.pem", none, true⟩ : CommandM Rehearsal String) s =
          (.ok "keys/a.wrapped.b64", s') ∧
      s'.files.read "keys/a.wrapped.b64" = .ok written ∧ Base64.decode? written = some octets ∧
      Package.unwrap w octets = .ok document ∧ PrivateKey.ofOctets document = .ok k := by
  intro k document w s
  let flags : WrapFlags := ⟨"keys/a.der", "wrapping.pem", none, true⟩
  have hkey : s.files.read "keys/a.der" = .ok document :=
    FileTree.read_eq_ok_iff.mpr ⟨["keys", "a.der"], by decide, by rfl⟩
  have hwrapping : s.files.read "wrapping.pem" = .ok w.publicKey.document.armored :=
    FileTree.read_eq_ok_iff.mpr ⟨["wrapping.pem"], by decide, by rfl⟩
  have hload : PrivateKey.ofFile document = .ok k := PrivateKey.ofFile_of_ofOctets
    (PrivateKey.ofOctets_encodeNaturals (r := PrivateKey.smallRsa) (by decide))
  have hencode : k.encode = .ok document := PrivateKey.encode_smallRsa
  have hlength : document.length < 2 ^ 32 := by
    simp only [document]
    decide_cbv
  have houtput : s.files.IsWritable flags.outputPath :=
    ⟨["keys", "a.wrapped.b64"], by decide, by decide⟩
  have hpath : flags.outputPath = "keys/a.wrapped.b64" := by decide
  obtain ⟨hp, hq, hpq⟩ := Rsa.PrivateKey.hasDistinctPrimes_mersenne
  have hsize : w.size = 141 := Rsa.PrivateKey.size_mersenne
  obtain ⟨s', written, octets, hrun, hread, hbase64, hunwrap, ⟨again, hagain, rfl, -⟩, -⟩ :=
    wrapFile_recoverable ⟨List.replicate 32 0x3c, List.replicate 20 0x5a⟩ rfl rfl flags s document
      hkey k hload document hencode hlength w hp hq hpq (by omega)
      Rsa.PrivateKey.bits_mersenne_le (.inr hwrapping) houtput
  rw [hpath] at hrun hread
  exact ⟨s', written, octets, hrun, hread, hbase64, hunwrap, hagain⟩

end Recovery

end KeyCustody
