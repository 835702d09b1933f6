import ObfuscationKernel.Core.Status
import Mathlib.Algebra.Group.Int.Defs
import Mathlib.Algebra.GroupWithZero.Nat
import Mathlib.Data.Int.Basic
import Mathlib.Data.List.Basic

/-! File descriptors of regular files: open, dup, fork, the reads and writes, seek, truncation and the status flags. -/

namespace ObfuscationKernel.Posix

open ObfuscationKernel.Core

def maxFileData : ℕ := 4096
def maxOpenFiles : ℕ := 32
def maxOpenDescriptions : ℕ := 256
def usizeMax : ℕ := 2 ^ 64 - 1
def int64Max : ℤ := 2 ^ 63 - 1

def oAppend : BitVec 32 := 0x8
def oNonblock : BitVec 32 := 0x800
def oTrunc : BitVec 32 := 0x200
def oCloexec : BitVec 32 := 0x80000

def openAllowed : BitVec 32 :=
  0x1 ||| 0x2 ||| oAppend ||| oNonblock ||| 0x40 ||| 0x80 ||| 0x20000 ||| oTrunc ||| oCloexec ||| 0x200000

/-- When a provider refuses a write or a truncation; a write it does not refuse is done whole. -/
structure Provider where
  refusesWrite : List UInt8 → ℕ → List UInt8 → Option Status
  refusesTruncate : List UInt8 → ℕ → Option Status

def readAt (contents : List UInt8) (offset count : ℕ) : List UInt8 := (contents.drop offset).take count

def resize (contents : List UInt8) (size : ℕ) : List UInt8 := (contents ++ List.replicate (size - contents.length) 0).take size

def writeAt (contents : List UInt8) (offset : ℕ) (data : List UInt8) : List UInt8 :=
  if data = [] then contents else resize contents offset ++ data ++ contents.drop (offset + data.length)

structure OpenFileDescription where
  node : ℕ
  offset : ℕ := 0
  flags : BitVec 32
  readable : Bool
  writable : Bool

namespace OpenFileDescription

def appends (d : OpenFileDescription) : Bool := d.flags &&& oAppend != 0

def start (d : OpenFileDescription) (size : ℕ) : ℕ := if d.appends then size else d.offset

end OpenFileDescription

inductive SeekWhence
  | set | current | end_

inductive PositionedWritePolicy
  | native | linuxAppend
  deriving DecidableEq

structure IoVector (α : Type) where
  null : Bool
  buffer : α
  deriving DecidableEq

structure Service where
  files : ℕ → List UInt8
  descriptions : ℕ → Option OpenFileDescription
  tables : ℕ → ℕ → Option ℕ

namespace Service

variable (s : Service) (p : Provider) (pid fd : ℕ)

def descriptor : Option (ℕ × OpenFileDescription) :=
  (s.tables pid fd).bind fun id => (s.descriptions id).map fun d => (id, d)

def setDescription (id : ℕ) (d : OpenFileDescription) : Service :=
  { s with descriptions := Function.update s.descriptions id (some d) }

def setFile (node : ℕ) (contents : List UInt8) : Service := { s with files := Function.update s.files node contents }

def install (fd id : ℕ) : Service :=
  { s with tables := Function.update s.tables pid (Function.update (s.tables pid) fd (some id)) }

def allocateFd (minimum : ℕ) : Result ℕ :=
  match (List.range maxOpenFiles).find? fun i => decide (minimum ≤ i) && (s.tables pid i).isNone with
  | some fd => .ok fd
  | none => .error (.processFileLimit "file descriptor table full")

def allocateDescription : Result ℕ :=
  match (List.range maxOpenDescriptions).find? fun i => decide (3 ≤ i) && (s.descriptions i).isNone with
  | some id => .ok id
  | none => .error (.systemFileLimit "open file description table full")

/-- `resolved` is what the path names, with the checks of its type and its permissions: a node, and whether it was created. -/
def open_ (resolved : Result (ℕ × Bool)) (flags : BitVec 32) : Result ℕ × Service :=
  if flags &&& ~~~openAllowed ≠ 0 ∨ flags &&& 3 = 3 ∨ flags &&& 0x200040 = 0x200040 then
    (.error (.invalidArgument "unsupported open flags or access mode"), s)
  else
    match s.allocateFd pid 0 with
    | .error status => (.error status, s)
    | .ok fd =>
      match s.allocateDescription with
      | .error status => (.error status, s)
      | .ok id =>
        match resolved with
        | .error status => (.error status, s)
        | .ok (node, created) =>
          let truncated := if !created && flags &&& oTrunc != 0 then p.refusesTruncate (s.files node) 0 else none
          match truncated with
          | some status => (.error status, s)
          | none =>
            let s := if !created && flags &&& oTrunc != 0 then s.setFile node [] else s
            let access := flags &&& 3
            (.ok fd, (s.setDescription id
              ⟨node, 0, flags &&& ~~~oCloexec, access == 0 || access == 2, access == 1 || access == 2⟩).install
              pid fd id)

def duplicate (minimum : ℕ) : Result ℕ × Service :=
  match s.descriptor pid fd with
  | none => (.error (.invalidArgument "bad file descriptor"), s)
  | some (id, _) =>
    match s.allocateFd pid minimum with
    | .error status => (.error status, s)
    | .ok target => (.ok target, s.install pid target id)

def fork (child : ℕ) : Service := { s with tables := Function.update s.tables child (s.tables pid) }

/-- The provider returns at most one buffer a call; the loop ends with a short chunk. -/
def readLoop (contents : List UInt8) (offset size : ℕ) : ℕ → List UInt8 → List UInt8
  | 0, out => out
  | fuel + 1, out =>
    if out.length < size then
      let wanted := size - out.length
      let chunk := readAt contents (offset + out.length) (min wanted maxFileData)
      if chunk.length < min wanted maxFileData then out ++ chunk else readLoop contents offset size fuel (out ++ chunk)
    else out

def read (size : ℕ) : Result (List UInt8) × Service :=
  match s.descriptor pid fd with
  | none => (.error (.invalidArgument "file descriptor is not readable"), s)
  | some (id, d) =>
    if !d.readable then (.error (.invalidArgument "file descriptor is not readable"), s)
    else
      let out := readLoop (s.files d.node) d.offset size (size + 1) []
      (.ok out, s.setDescription id { d with offset := d.offset + out.length })

def refusal (contents : List UInt8) (offset : ℕ) (data : List UInt8) (text : String) : Option Status :=
  if data.length > usizeMax - offset then some (.overflow text) else p.refusesWrite contents offset data

def write (data : List UInt8) : Result ℕ × Service :=
  match s.descriptor pid fd with
  | none => (.error (.invalidArgument "file descriptor is not writable"), s)
  | some (id, d) =>
    if !d.writable then (.error (.invalidArgument "file descriptor is not writable"), s)
    else
      let contents := s.files d.node
      let offset := d.start contents.length
      match refusal p contents offset data "write offset overflow" with
      | some status => (.error status, s)
      | none => (.ok data.length, (s.setFile d.node (writeAt contents offset data)).setDescription id
          { d with offset := offset + data.length })

def ftruncate (size : ℕ) : Result Unit × Service :=
  match s.descriptor pid fd with
  | none => (.error (.badDescriptor "file descriptor is not writable"), s)
  | some (_, d) =>
    if !d.writable then (.error (.badDescriptor "file descriptor is not writable"), s)
    else
      match p.refusesTruncate (s.files d.node) size with
      | some status => (.error status, s)
      | none => (.ok (), s.setFile d.node (resize (s.files d.node) size))

def pread (size offset : ℕ) : Result (List UInt8) :=
  match s.descriptor pid fd with
  | none => .error (.badDescriptor "bad file descriptor")
  | some (_, d) =>
    if !d.readable then .error (.badDescriptor "file descriptor is not readable")
    else if size = 0 then .ok []
    else .ok (readAt (s.files d.node) offset (min size maxFileData))

def pwriteWithPolicy (policy : PositionedWritePolicy) (data : List UInt8) (offset maximumOffset : ℕ) : Result ℕ × Service :=
  match s.descriptor pid fd with
  | none => (.error (.badDescriptor "bad file descriptor"), s)
  | some (_, d) =>
    if !d.writable then (.error (.badDescriptor "file descriptor is not writable"), s)
    else if data = [] then (.ok 0, s)
    else
      let contents := s.files d.node
      let offset := if policy = .linuxAppend ∧ d.appends then contents.length else offset
      if policy = .linuxAppend ∧ (offset > maximumOffset ∨ data.length > maximumOffset - offset) then
        (.error (.overflow "positioned write exceeds native offset capacity"), s)
      else
        match refusal p contents offset data "positioned write offset overflow" with
        | some status => (.error status, s)
        | none => (.ok data.length, s.setFile d.node (writeAt contents offset data))

def readv : List (IoVector ℕ) → List UInt8 → Service → Result (List UInt8) × Service
  | [], total, s => (.ok total, s)
  | v :: vectors, total, s =>
    if v.null && v.buffer != 0 then
      (if total = [] then .error (.invalidArgument "readv buffer is null") else .ok total, s)
    else
      match s.read pid fd v.buffer with
      | (.error status, s) => (if total = [] then .error status else .ok total, s)
      | (.ok bytes, s) => if bytes.length ≠ v.buffer then (.ok (total ++ bytes), s) else readv vectors (total ++ bytes) s

def writev : List (IoVector (List UInt8)) → ℕ → Service → Result ℕ × Service
  | [], total, s => (.ok total, s)
  | v :: vectors, total, s =>
    if v.null && v.buffer != [] then
      (if total = 0 then .error (.invalidArgument "writev buffer is null") else .ok total, s)
    else
      match s.write p pid fd v.buffer with
      | (.error status, s) => (if total = 0 then .error status else .ok total, s)
      | (.ok count, s) => if count ≠ v.buffer.length then (.ok (total + count), s) else writev vectors (total + count) s

def seekBase (d : OpenFileDescription) : SeekWhence → Result ℤ
  | .set => .ok 0
  | .current => .ok (BitVec.ofNat 64 d.offset).toInt
  | .end_ =>
    let size := (s.files d.node).length
    if (size : ℤ) > int64Max then .error (.overflow "file size exceeds seek range") else .ok size

def seek (offset : ℤ) (whence : SeekWhence) : Result ℕ × Service :=
  match s.descriptor pid fd with
  | none => (.error (.invalidArgument "file descriptor is not seekable"), s)
  | some (id, d) =>
    match s.seekBase d whence with
    | .error status => (.error status, s)
    | .ok base =>
      if offset > 0 ∧ base > int64Max - offset then (.error (.overflow "seek offset overflow"), s)
      else if base + offset < 0 then (.error (.invalidArgument "negative seek offset"), s)
      else (.ok (base + offset).toNat, s.setDescription id { d with offset := (base + offset).toNat })

def setFlags (argument : BitVec 32) : Result Unit × Service :=
  match s.descriptor pid fd with
  | none => (.error (.badDescriptor "bad file descriptor"), s)
  | some (id, d) =>
    (.ok (), s.setDescription id { d with
      flags := (d.flags &&& ~~~(oAppend ||| oNonblock)) ||| (argument &&& (oAppend ||| oNonblock)) })

end Service

end ObfuscationKernel.Posix
