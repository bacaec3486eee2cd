import DesignTokens.Files.Path
import DesignTokens.Text.Quoted

/-!
# Files/Basic — what is found at paths

A run sees files as a function from paths to what is found there; nothing else of a disk matters.
Two questions are put about a path, what stands there and what can be read there, and the system
answers **each of them on its own**, by an error if it has to.

* `Files.isA` — what stands at a path; that nothing does is no error.
* `Files.read` — all that can be read at a path.
-/

namespace DesignTokens

/-! ## Errors of the system -/

/-- An error of the system: its number and its words. -/
structure SystemError where
  number : Nat
  words : String
  deriving DecidableEq, Repr

namespace SystemError

/-- The wording of an error. -/
def message (e : SystemError) : String := "[Errno " ++ toString e.number ++ "] " ++ e.words

/-- The wording of an error that names a path. -/
def messageAt (e : SystemError) (path : Path) : String := e.message ++ ": " ++ Text.quoted path.text

def noSuchFile : SystemError := ⟨2, "No such file or directory"⟩

def isADirectory : SystemError := ⟨21, "Is a directory"⟩

/-- Whether an error says that nothing stands at a path: no such file is there, the descriptor is
bad, the path goes on through a file, or its links lead round. -/
def isAbsence (e : SystemError) : Bool := [2, 9, 20, 40].contains e.number

end SystemError

/-- Why the bytes at a path are not there: nothing opens, or what opened cannot be read to its
end. -/
inductive ReadFault where
  | opening (e : SystemError)
  | reading (e : SystemError)
  deriving DecidableEq, Repr

/-- The wording of a fault; only what does not open is named. -/
def ReadFault.message (f : ReadFault) (path : Path) : String :=
  match f with
  | .opening e => e.messageAt path
  | .reading e => e.message

/-! ## What is found -/

/-- What stands at a path. -/
inductive FileKind where
  | file
  | directory
  /-- A device or the like. -/
  | other
  deriving DecidableEq, Repr

/-- What can be read of something that was opened: bytes up to its end, or up to an error. -/
structure Stream where
  bytes : List UInt8
  fault : Option SystemError

/-- What is found at a path. -/
structure Found where
  /-- What stands there. -/
  kind : Except SystemError FileKind
  /-- What can be read there. -/
  content : Except SystemError Stream

namespace Found

/-- A file that can be read to its end. -/
def file (bytes : List UInt8) : Found := ⟨.ok .file, .ok ⟨bytes, none⟩⟩

/-- A file that is there and cannot be opened. -/
def locked (e : SystemError) : Found := ⟨.ok .file, .error e⟩

def directory : Found := ⟨.ok .directory, .error .isADirectory⟩

/-- A path that leads nowhere, or not as far as to say what stands there. -/
def barred (e : SystemError) : Found := ⟨.error e, .error e⟩

def missing : Found := barred .noSuchFile

end Found

/-- What a run sees of the machine that it runs on: the files, and how many arrays and objects may
lie in one another in a token file for it to be read. -/
structure Files where
  found : Path → Found
  nesting : Nat

namespace Files

instance : CoeFun Files fun _ => Path → Found := ⟨found⟩

/-- Whether something of a kind stands at a path. -/
def isA (fs : Files) (kind : FileKind) (path : Path) : Except SystemError Bool :=
  match (fs path).kind with
  | .ok k => .ok (k == kind)
  | .error e => if e.isAbsence then .ok false else .error e

/-- All bytes at a path. -/
def read (fs : Files) (path : Path) : Except ReadFault (List UInt8) :=
  match (fs path).content with
  | .error e => .error (.opening e)
  | .ok ⟨_, some e⟩ => .error (.reading e)
  | .ok ⟨bytes, none⟩ => .ok bytes

/-- The files after a text was written at a path. -/
def write (fs : Files) (path : Path) (text : String) : Files :=
  { fs with found := fun p => if p = path then .file text.toUTF8.toList else fs p }

/-- The nesting that machines commonly allow. -/
def commonNesting : Nat := 980

/-- The files of a list, and nothing at any other path. -/
def ofList (found : List (Path × Found)) : Files where
  found p := ((found.find? fun e => e.1 == p).map Prod.snd).getD .missing
  nesting := commonNesting

variable {fs : Files} {path : Path} {kind : FileKind} {bytes : List UInt8}

theorem isA_eq_true_iff : fs.isA kind path = .ok true ↔ (fs path).kind = .ok kind := by
  unfold isA
  cases (fs path).kind with
  | ok k => simp
  | error e => cases h : e.isAbsence <;> simp [h]

theorem read_eq_ok_iff : fs.read path = .ok bytes ↔ (fs path).content = .ok ⟨bytes, none⟩ := by
  unfold read
  split
  · rename_i e he
    simp [he]
  · rename_i e he
    simp [he]
  · rename_i b hb
    simp [hb]

/-- **What is a file and can be read** is a file of the bytes that were read. -/
theorem eq_file_iff :
    fs path = .file bytes ↔ fs.isA .file path = .ok true ∧ fs.read path = .ok bytes := by
  rw [isA_eq_true_iff, read_eq_ok_iff]
  constructor
  · intro h
    rw [h]
    exact ⟨rfl, rfl⟩
  · rintro ⟨hkind, hcontent⟩
    rw [Found.file, ← hkind, ← hcontent]

@[simp] theorem write_apply_self (fs : Files) (path : Path) (text : String) :
    fs.write path text path = .file text.toUTF8.toList := by
  simp [write]

theorem write_apply_of_ne (fs : Files) {p path : Path} (text : String) (h : p ≠ path) :
    fs.write path text p = fs p := by
  simp [write, h]

end Files

end DesignTokens
