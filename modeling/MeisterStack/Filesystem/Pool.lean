import MeisterStack.Foundation.Disk
import MeisterStack.Foundation.Program
import MeisterStack.Filesystem.Names

/-!
# A pool directory and the drivers that share it

`provision`, `provision_from` and `snapshot` look for the published file, write a staging file and
rename it into place; `deprovision` and `drop_snapshot` remove files one by one; a driver that
starts sweeps leftovers. A blocking task goes on when its caller has given up: the answer is a task
of its own. Every call on the filesystem may fail.
-/

namespace MeisterStack.Filesystem

open Foundation Function

structure File where
  bytes : List UInt8
  mtime : Nat

structure Process where
  host : HostTag
  number : Nat
  deriving DecidableEq

structure State where
  disk : Disk Name File
  clock : Nat
  inFlight : List (Process × Name)
  drawn : List Name
  published : Name → Option Nat

inductive Image where
  | raw (bytes : List UInt8)
  | qcow2 (virtualSize : Nat)

inductive Job where
  | provision (id : Uuid) (image : Option Image) (size : Nat)
  | provisionFrom (id : Uuid) (snapshot : Name) (size : Nat)
  | snapshot (volume : Name) (id : Uuid)

inductive Source where
  | blank
  | image (image : Image)
  | file (path : Name)

namespace Job

def object : Job → Object
  | .provision id _ _ | .provisionFrom id _ _ => .volume id
  | .snapshot _ id => .snapshot id

def source : Job → Source
  | .provision _ image _ => image.elim .blank .image
  | .provisionFrom _ path _ | .snapshot path _ => .file path

def size : Job → Option Nat
  | .provision _ _ size | .provisionFrom _ _ size => some size
  | .snapshot _ _ => none

def ignoresStatErrors : Job → Bool
  | .provision _ _ _ => false
  | .provisionFrom _ _ _ | .snapshot _ _ => true

def admits (disk : Disk Name File) : Job → Bool
  | .provision _ none _ => true
  | .provision _ (some (.raw bytes)) size => bytes.length ≤ size
  | .provision _ (some (.qcow2 virtualSize)) size => virtualSize ≤ size
  | .provisionFrom _ path size =>
    (disk.entry path).any fun file => (disk.files file).bytes.length ≤ size
  | .snapshot path _ => (disk.entry path).isSome

end Job

structure Attempt where
  process : Process
  job : Job

namespace Attempt

def path (a : Attempt) : Name := a.job.object.path

def staging (a : Attempt) (nonce : Nonce) : Name := a.job.object.staging a.process.host nonce

end Attempt

inductive Reader where
  | image (bytes : List UInt8)
  | file (number : Nat)

structure Copy where
  source : Reader
  file : Nat
  offset : Nat
  remaining : Option Nat
  firstCall : Bool

inductive Stage where
  | begin
  | copying (c : Copy)
  | converting
  | opening
  | setLen (file : Nat)
  | syncAll
  | rename
  | removeFile

inductive Outcome where
  | next (stage : Stage)
  | answer
  | ended

inductive Input where
  | go
  | fail
  | draw (nonce : Nonce)
  | copied (n : Nat)
  | unsupported
  | converted (bytes : List UInt8)

def setLength (size : Nat) (bytes : List UInt8) : List UInt8 :=
  bytes.take size ++ List.replicate (size - bytes.length) 0

def writeAt (offset : Nat) (data bytes : List UInt8) : List UInt8 :=
  bytes.take offset ++ List.replicate (offset - bytes.length) 0 ++ data ++
    bytes.drop (offset + data.length)

namespace State

variable (s : State)

def create (name : Name) : Disk Name File × Nat := s.disk.create name ⟨[], s.clock⟩

def write (file : Nat) (change : List UInt8 → List UInt8) : Disk Name File :=
  s.disk.edit file fun f => ⟨change f.bytes, s.clock⟩

def read : Reader → List UInt8
  | .image bytes => bytes
  | .file number => (s.disk.files number).bytes

def openSource (path : Name) : Option Reader := (s.disk.entry path).map .file

def land (process : Process) (tmp : Name) : State :=
  { s with inFlight := s.inFlight.filter fun e => e ≠ (process, tmp) }

end State

def afterCopy (job : Job) : Stage :=
  match job.size with
  | some _ => .opening
  | none => .rename

variable (s : State) (tmp : Name)

def startCopy (firstCall : Bool) (source : Reader) :
    Disk Name File × Outcome :=
  let (disk, file) := s.create tmp
  let total := (s.read source).length
  (disk, .next (.copying ⟨source, file, 0, if firstCall then some total else none, firstCall⟩))

def openAndCopy (firstCall : Bool) : Source → Disk Name File × Outcome
  | .image (.raw bytes) => startCopy s tmp firstCall (.image bytes)
  | .file path =>
    match s.openSource path with
    | some source => startCopy s tmp firstCall source
    | none => (s.disk, .next .removeFile)
  | .blank | .image (.qcow2 _) => (s.disk, .next .removeFile)

def beginWriting : Source → Disk Name File × Outcome
  | .blank => ((s.create tmp).1, .next .opening)
  | .image (.qcow2 _) => ((s.create tmp).1, .next .converting)
  | source => openAndCopy s tmp true source

def copyChunk (c : Copy) (n : Nat) : Option (Disk Name File × Outcome) :=
  let chunk := ((s.read c.source).drop c.offset).take n
  if n = 0 then some (s.disk, .next .removeFile)
  else if chunk.length = n && c.remaining.all (n ≤ ·) then
    some (s.write c.file (· ++ chunk),
      .next (.copying { c with
        offset := c.offset + n
        remaining := c.remaining.map (· - n)
        firstCall := false }))
  else none

def copyFinished (c : Copy) : Bool :=
  match c.remaining with
  | some remaining => remaining = 0
  | none => (s.read c.source).length ≤ c.offset

def advance (a : Attempt) (tmp : Name) (stage : Stage) (input : Input) :
    Option (Disk Name File × Outcome) :=
  match stage, input with
  | .begin, .go => some (beginWriting s tmp a.job.source)
  | .copying c, .go => if copyFinished s c then some (s.disk, .next (afterCopy a.job)) else none
  | .copying c, .copied n => if copyFinished s c then none else copyChunk s c n
  | .copying c, .unsupported =>
    if copyFinished s c then none
    else if c.firstCall then some (openAndCopy s tmp false a.job.source)
    else some (s.disk, .next .removeFile)
  | .converting, .converted bytes =>
    match s.disk.entry tmp with
    | some file => some (s.write file fun _ => bytes, .next .opening)
    | none => some (s.disk, .next .removeFile)
  | .opening, .go =>
    match s.disk.entry tmp with
    | some file => some (s.disk, .next (.setLen file))
    | none => some (s.disk, .next .removeFile)
  | .setLen file, .go =>
    match a.job.size with
    | some size => some (s.write file (setLength size), .next .syncAll)
    | none => none
  | .syncAll, .go => some (s.disk, .next .rename)
  | .rename, .go =>
    match s.disk.rename tmp a.path with
    | some disk => some (disk, .answer)
    | none => some (s.disk, .next .removeFile)
  | .removeFile, .go => some (s.disk.unlink tmp, .ended)
  -- A failed removal only warns.
  | .removeFile, .fail => some (s.disk, .ended)
  | _, .fail => some (s.disk, .next .removeFile)
  | _, _ => none

def staleAfter : Nat := 60 * 60

inductive Event where
  | call (a : Attempt)
  | remove (o : Object) (listing : List Name)
  | start (p : Process) (listing : List Name)
  | beat (name : Name)
  | tick (seconds : Nat)
  | guest (file offset : Nat) (data : List UInt8)

structure Sweep where
  process : Process
  names : List Name
  now : Option (Option Nat)

inductive Task where
  | look (a : Attempt)
  | check (a : Attempt)
  | stage (a : Attempt) (tmp : Name) (stage : Stage)
  | answer (o : Object)
  | remove (o : Object) (doomed : List Name)
  | sweep (w : Sweep)
  | judge (w : Sweep) (name : Name) (number : Nat) (first : File)
  | secondLook (w : Sweep) (name : Name) (number : Nat) (first : File)
  | unlink (w : Sweep) (name : Name)

def env (event : Event) : Option (State × List Task) :=
  match event with
  | .call a => some (s, [.look a])
  | .remove o listing =>
    some ({ s with published := update s.published o.path none },
      [.remove o (listing.filter (stagedFor o) ++ [o.legacy, o.path])])
  | .start p listing => some (s, [.sweep ⟨p, listing, none⟩])
  | .beat name =>
    match s.disk.entry name with
    | some file =>
      if s.inFlight.any fun e => e.2 = name then
        some ({ s with disk := s.disk.edit file fun f => { f with mtime := s.clock } }, [])
      else none
    | none => none
  | .tick seconds => some ({ s with clock := s.clock + seconds }, [])
  | .guest file offset data => some ({ s with disk := s.write file (writeAt offset data) }, [])

def sweepOne (p : Process) (name : Name) (rest : Sweep) : Task :=
  match classify name, s.disk.entry name with
  | some kind, some file =>
    if kind.owner = some p.host.text then
      if (p, name) ∈ s.inFlight then .sweep rest else .unlink rest name
    else .judge rest name file (s.disk.files file)
  | _, _ => .sweep rest

def untouched (name : Name) (number : Nat) (first : File) : Bool :=
  s.disk.entry name = some number &&
    (s.disk.files number).bytes.length = first.bytes.length &&
    (s.disk.files number).mtime = first.mtime

def task (t : Task) (input : Input) : Option (State × List Task) :=
  match t, input with
  | .look a, .go =>
    if (s.disk.entry a.path).isSome then some (s, [.answer a.job.object])
    else some (s, [.check a])
  | .look a, .fail => some (s, if a.job.ignoresStatErrors then [.check a] else [])
  | .check a, .draw nonce =>
    if a.job.admits s.disk then
      let tmp := a.staging nonce
      if tmp ∈ s.drawn then none
      else
        some ({ s with
          drawn := tmp :: s.drawn
          inFlight := (a.process, tmp) :: s.inFlight }, [.stage a tmp .begin])
    else some (s, [])
  | .check _, .fail => some (s, [])
  | .stage a tmp stage, input =>
    (advance s a tmp stage input).map fun r =>
      match r.2 with
      | .next stage' => ({ s with disk := r.1 }, [.stage a tmp stage'])
      | .answer => ({ s with disk := r.1 }.land a.process tmp, [.answer a.job.object])
      | .ended => ({ s with disk := r.1 }.land a.process tmp, [])
  | .answer o, .go =>
    some ({ s with published := update s.published o.path (s.disk.entry o.path) }, [])
  | .remove _ [], .go => some (s, [])
  | .remove o (name :: rest), .go =>
    some ({ s with
      disk := s.disk.unlink name
      published := if name = o.path then update s.published o.path none
        else s.published }, [.remove o rest])
  | .remove _ _, .fail => some (s, [])
  | .sweep ⟨_, [], _⟩, .go => some (s, [])
  | .sweep ⟨p, name :: names, now⟩, .go => some (s, [sweepOne s p name ⟨p, names, now⟩])
  | .judge w name number first, input =>
    match w.now, input with
    | none, .go => some (s, [.judge { w with now := some (some s.clock) } name number first])
    | none, .fail => some (s, [.sweep { w with now := some none }])
    | some none, .go => some (s, [.sweep w])
    | some (some clock), .go =>
      some (s, [if clock - first.mtime < staleAfter then .sweep w
        else .secondLook w name number first])
    | _, _ => none
  | .secondLook w name number first, .go =>
    some (s, [if untouched s name number first then .unlink w name else .sweep w])
  | .unlink w name, .go => some ({ s with disk := s.disk.unlink name }, [.sweep w])
  | .unlink w _, .fail => some (s, [.sweep w])
  | _, _ => none

def program : Program State Task Event Input := ⟨env, task⟩

end MeisterStack.Filesystem
