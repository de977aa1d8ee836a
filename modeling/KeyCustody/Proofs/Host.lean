import KeyCustody.Command.Host
import KeyCustody.Proofs.Files.Tree

/-!
# Steps of a command in a scene

A command that is rehearsed goes from scene to scene, and stops at the first step that fails. The
steps before a success can be taken off one by one, with the scene that each of them leaves. Looking
at a file leaves the scene as it was.

Much of a command only looks at files and prints. Such a part changes no file and contacts no
service, and what it comes to is a function of the file tree, which is put together from the
functions of its steps.

## Main definitions

* `Rehearsal.Inspects` — a command that only looks at files and prints, and what it comes to
* `Host.deliver` — the end of a command that writes a file

## Main results

* `Rehearsal.bind_of_ok`, `Rehearsal.bind_of_error` — a step, and the steps after it
* `Rehearsal.require_of_read`, `Rehearsal.readFile_of_read`, `Rehearsal.loadKeyFile_of_read` — steps
  that look at a file
* `Rehearsal.Inspects.bind`, `Rehearsal.Inspects.bind_apply` — commands that change nothing, and what
  comes after them
* `Rehearsal.deliver_apply` — the file is written, or nothing is
-/

namespace KeyCustody

variable {s s' : Scene} {path : String} {content : Octets}

namespace FileTree

variable {t : FileTree}

/-- Only what is present can be read. -/
theorem isPresent_of_read (h : t.read path = .ok content) : t.isPresent path = true := by
  obtain ⟨place, hplace, hentry⟩ := read_eq_ok_iff.mp h
  rw [isPresent, hplace]
  dsimp only
  rw [hentry]
  rfl

/-- Whether a path leads somewhere, as a step that may fail. -/
def require (t : FileTree) (path : String) : Except CommandError Unit :=
  if t.isPresent path then .ok () else .error (.fileNotFound path)

/-- The private key that a file holds, and the size of the file. -/
def key (t : FileTree) (path : String) : Except KeyError (PrivateKey × Nat) := do
  let content ← (t.read path).mapError .io
  (PrivateKey.ofFile content).map (·, content.length)

theorem require_of_read (h : t.read path = .ok content) : t.require path = .ok () :=
  if_pos (isPresent_of_read h)

theorem key_eq_ok_iff {k : PrivateKey} {size : Nat} : t.key path = .ok (k, size) ↔
    ∃ content, t.read path = .ok content ∧ PrivateKey.ofFile content = .ok k ∧
      size = content.length := by
  rw [key, Outcome.bind_eq_ok_iff]
  refine exists_congr fun content => and_congr Outcome.mapError_eq_ok_iff ?_
  rw [Outcome.map_eq_ok_iff]
  constructor
  · rintro ⟨_, hk, ⟨⟩⟩
    exact ⟨hk, rfl⟩
  · rintro ⟨hk, rfl⟩
    exact ⟨k, hk, rfl⟩

end FileTree

namespace Rehearsal

variable {α β : Type}

/-- A step that succeeds hands its result and its scene to the steps after it. -/
theorem bind_of_ok {x : CommandM Rehearsal α} {f : α → CommandM Rehearsal β} {a : α}
    (h : x s = (.ok a, s')) : (x >>= f) s = f a s' := by
  simp only [bind, ExceptT.bind, ExceptT.mk, StateT.bind, h]
  rfl

/-- After a step that fails there are no more. -/
theorem bind_of_error {x : CommandM Rehearsal α} {f : α → CommandM Rehearsal β} {e : CommandError}
    (h : x s = (.error e, s')) : (x >>= f) s = (.error e, s') := by
  simp only [bind, ExceptT.bind, ExceptT.mk, StateT.bind, h]
  rfl

theorem lift_apply {x : Rehearsal α} {a : α} (h : x s = (a, s')) :
    (ExceptT.lift x : CommandM Rehearsal α) s = (.ok a, s') := by
  simp only [ExceptT.lift, ExceptT.mk, Functor.map, StateT.map, h]
  rfl

/-! ## Looking at files -/

theorem require_apply (path : String) (s : Scene) :
    (Host.require path : CommandM Rehearsal Unit) s = (s.files.require path, s) := by
  have hpresent : (Host.isPresent path : Rehearsal Bool) s = (s.files.isPresent path, s) := rfl
  rw [Host.require, bind_of_ok (lift_apply hpresent), FileTree.require]
  split_ifs <;> rfl

theorem readFile_apply (path : String) (s : Scene) :
    (Host.readFile path : CommandM Rehearsal Octets) s =
      ((s.files.read path).mapError .io, s) := by
  have hread : (Host.read path : Rehearsal (Except IoFault Octets)) s =
      (s.files.read path, s) := rfl
  rw [Host.readFile, bind_of_ok (lift_apply hread)]
  cases s.files.read path <;> rfl

theorem loadKeyFile_apply (path : String) (s : Scene) :
    (Host.loadKeyFile path : Rehearsal (Except KeyError (PrivateKey × Nat))) s =
      (s.files.key path, s) := by
  rw [FileTree.key]
  simp only [Host.loadKeyFile, Host.read, bind, StateT.bind]
  cases s.files.read path <;> rfl

theorem loadKey_apply (path : String) (s : Scene) :
    (Host.loadKey path : CommandM Rehearsal (PrivateKey × Nat)) s =
      ((s.files.key path).mapError .key, s) := by
  rw [Host.loadKey, bind_of_ok (lift_apply (loadKeyFile_apply path s))]
  cases s.files.key path <;> rfl

theorem require_of_read (h : s.files.read path = .ok content) :
    (Host.require path : CommandM Rehearsal Unit) s = (.ok (), s) := by
  rw [require_apply, FileTree.require_of_read h]

theorem readFile_of_read (h : s.files.read path = .ok content) :
    (Host.readFile path : CommandM Rehearsal Octets) s = (.ok content, s) := by
  rw [readFile_apply, h]
  rfl

/-- The key in a file is the one that its content is loaded as. -/
theorem loadKeyFile_of_read (h : s.files.read path = .ok content) :
    (Host.loadKeyFile path : Rehearsal (Except KeyError (PrivateKey × Nat))) s =
      ((PrivateKey.ofFile content).map (·, content.length), s) := by
  rw [loadKeyFile_apply, FileTree.key, h]
  rfl

theorem loadKeyFile_eq_ok_iff (h : s.files.read path = .ok content) {k : PrivateKey} :
    (Host.loadKeyFile path : Rehearsal (Except KeyError (PrivateKey × Nat))) s =
      (.ok (k, content.length), s) ↔ PrivateKey.ofFile content = .ok k := by
  rw [loadKeyFile_apply, Prod.mk.injEq, and_iff_left rfl, FileTree.key_eq_ok_iff]
  constructor
  · rintro ⟨_, hread, hk, -⟩
    obtain rfl := Except.ok.inj (h.symm.trans hread)
    exact hk
  · exact fun hk => ⟨content, h, hk, rfl⟩

end Rehearsal

/-! ## Commands that change nothing -/

/-- The scene with more text printed. -/
def Scene.printing (s : Scene) (text : String) : Scene := { s with printed := s.printed ++ text }

@[simp] theorem Scene.files_printing (s : Scene) (text : String) :
    (s.printing text).files = s.files := rfl

theorem Scene.printing_printing (s : Scene) (text more : String) :
    (s.printing text).printing more = s.printing (text ++ more) := by
  rw [printing, printing, printing, String.append_assoc]

namespace Rehearsal

variable {α β : Type} {x : CommandM Rehearsal α} {result : FileTree → Except CommandError α}

/-- The command does nothing but look at files and print, and what it comes to is settled by the
files. -/
def Inspects (x : CommandM Rehearsal α) (result : FileTree → Except CommandError α) : Prop :=
  ∀ s, ∃ text, x s = (result s.files, s.printing text)

/-- A command that changes nothing, and what comes after it. -/
theorem Inspects.bind_apply (h : Inspects x result) (f : α → CommandM Rehearsal β) (s : Scene) :
    ∃ text, (x >>= f) s =
      match result s.files with
      | .ok a => f a (s.printing text)
      | .error e => (.error e, s.printing text) := by
  obtain ⟨text, hx⟩ := h s
  refine ⟨text, ?_⟩
  cases hresult : result s.files with
  | ok a =>
    rw [hresult] at hx
    exact bind_of_ok hx
  | error e =>
    rw [hresult] at hx
    exact bind_of_error hx

theorem Inspects.bind {f : α → CommandM Rehearsal β} {g : α → FileTree → Except CommandError β}
    (h : Inspects x result) (hf : ∀ a, Inspects (f a) (g a)) :
    Inspects (x >>= f) fun t => result t >>= (g · t) := by
  intro s
  obtain ⟨text, hx⟩ := h.bind_apply f s
  change ∃ more, (x >>= f) s = (result s.files >>= (g · s.files), s.printing more)
  rw [hx]
  cases result s.files with
  | ok a =>
    obtain ⟨more, hmore⟩ := hf a (s.printing text)
    exact ⟨text ++ more, by rw [← Scene.printing_printing]; exact hmore⟩
  | error e => exact ⟨text, rfl⟩

/-- A command that leaves the scene as it was. -/
theorem inspects_of_apply (h : ∀ s, x s = (result s.files, s)) : Inspects x result := by
  intro s
  exact ⟨"", by rw [h, Scene.printing, String.append_empty]⟩

theorem inspects_pure (a : α) : Inspects (pure a) fun _ => .ok a := inspects_of_apply fun _ => rfl

theorem inspects_orFail (r : Except KeyError α) :
    Inspects (Host.orFail r) fun _ => r.mapError .key := by
  cases r <;> exact inspects_of_apply fun _ => rfl

theorem say_apply (line : String) (s : Scene) :
    (Host.say line : CommandM Rehearsal Unit) s = (.ok (), s.printing (line ++ "\n")) := rfl

theorem inspects_say (line : String) : Inspects (Host.say line) fun _ => .ok () :=
  fun s => ⟨line ++ "\n", say_apply line s⟩

theorem inspects_sayAll (lines : List String) :
    Inspects (lines.forM Host.say) fun _ => .ok () := by
  induction lines with
  | nil => exact inspects_pure ()
  | cons line lines ih => exact (inspects_say line).bind fun _ => ih

theorem inspects_require (path : String) : Inspects (Host.require path) (·.require path) :=
  inspects_of_apply (require_apply path)

theorem inspects_readFile (path : String) :
    Inspects (Host.readFile path) fun t => (t.read path).mapError .io :=
  inspects_of_apply (readFile_apply path)

theorem inspects_loadKey (path : String) :
    Inspects (Host.loadKey path) fun t => (t.key path).mapError .key :=
  inspects_of_apply (loadKey_apply path)

end Rehearsal

/-! ## The end of a command -/

/-- Writes a file, reports on it in lines, and comes to its path. -/
def Host.deliver {m : Type → Type} [Monad m] [Host m] (path : String) (content : Octets)
    (lines : List String) : CommandM m String := do
  writeFile path content
  lines.forM say
  pure path

theorem Rehearsal.writeFile_apply (path : String) (content : Octets) (s : Scene) :
    (Host.writeFile path content : CommandM Rehearsal Unit) s =
      match s.files.write path content with
      | .ok files => (.ok (), { s with files })
      | .error fault => (.error (.io fault), s) := by
  cases hwrite : s.files.write path content with
  | ok files =>
    have hresult : (Host.write path content : Rehearsal (Except IoFault Unit)) s =
        (.ok (), { s with files }) := by
      simp only [Host.write, hwrite]
    rw [Host.writeFile, bind_of_ok (lift_apply hresult)]
    rfl
  | error fault =>
    have hresult : (Host.write path content : Rehearsal (Except IoFault Unit)) s =
        (.error fault, s) := by
      simp only [Host.write, hwrite]
    rw [Host.writeFile, bind_of_ok (lift_apply hresult)]
    rfl

/-- At the end of a command the file is written, or nothing is done. -/
theorem Rehearsal.deliver_apply (path : String) (content : Octets) (lines : List String)
    (s : Scene) : ∃ text, (Host.deliver path content lines : CommandM Rehearsal String) s =
      match s.files.write path content with
      | .ok files => (.ok path, { s with files }.printing text)
      | .error fault => (.error (.io fault), s) := by
  have hwrite := writeFile_apply path content s
  rw [Host.deliver]
  cases hfiles : s.files.write path content with
  | ok files =>
    rw [hfiles] at hwrite
    obtain ⟨text, hsay⟩ := (inspects_sayAll lines).bind_apply (fun _ => pure path) { s with files }
    exact ⟨text, (bind_of_ok hwrite).trans hsay⟩
  | error fault =>
    rw [hfiles] at hwrite
    exact ⟨"", bind_of_error hwrite⟩

end KeyCustody
