import ObfuscationKernel.Posix.Descriptors

/-! The descriptor calls refine POSIX files with shared offsets. -/

namespace ObfuscationKernel.Posix

open ObfuscationKernel.Core List Function Service

inductive Reply
  | bytes (data : List UInt8)
  | count (n : ℕ)
  | done

inductive Call
  | open_ (resolved : Result (ℕ × Bool)) (flags : BitVec 32)
  | dup (fd minimum : ℕ)
  | fork (child : ℕ)
  | read (fd size : ℕ)
  | write (fd : ℕ) (data : List UInt8)
  | readv (fd : ℕ) (vectors : List (IoVector ℕ))
  | writev (fd : ℕ) (vectors : List (IoVector (List UInt8)))
  | pread (fd size offset : ℕ)
  | pwrite (fd : ℕ) (policy : PositionedWritePolicy) (data : List UInt8) (offset maximumOffset : ℕ)
  | seek (fd : ℕ) (offset : ℤ) (whence : SeekWhence)
  | ftruncate (fd size : ℕ)
  | setFlags (fd : ℕ) (argument : BitVec 32)

namespace Service

variable (s : Service) (p : Provider) (pid fd : ℕ)

def step : Call → Result Reply × Service
  | .open_ resolved flags => ((s.open_ p pid resolved flags).1.map .count, (s.open_ p pid resolved flags).2)
  | .dup fd minimum => ((s.duplicate pid fd minimum).1.map .count, (s.duplicate pid fd minimum).2)
  | .fork child => (.ok (.count child), s.fork pid child)
  | .read fd size => ((s.read pid fd size).1.map .bytes, (s.read pid fd size).2)
  | .write fd data => ((s.write p pid fd data).1.map .count, (s.write p pid fd data).2)
  | .readv fd vectors => ((readv pid fd vectors [] s).1.map .bytes, (readv pid fd vectors [] s).2)
  | .writev fd vectors => ((writev p pid fd vectors 0 s).1.map .count, (writev p pid fd vectors 0 s).2)
  | .pread fd size offset => ((s.pread pid fd size offset).map .bytes, s)
  | .pwrite fd policy data offset maximum => ((s.pwriteWithPolicy p pid fd policy data offset maximum).1.map .count,
      (s.pwriteWithPolicy p pid fd policy data offset maximum).2)
  | .seek fd offset whence => ((s.seek pid fd offset whence).1.map .count, (s.seek pid fd offset whence).2)
  | .ftruncate fd size => ((s.ftruncate p pid fd size).1.map fun _ => .done, (s.ftruncate p pid fd size).2)
  | .setFlags fd argument => ((s.setFlags pid fd argument).1.map fun _ => .done, (s.setFlags pid fd argument).2)

def readSpec (size : ℕ) : Result (List UInt8) × Service :=
  match s.descriptor pid fd with
  | none => (.error (.invalidArgument "file descriptor is not readable"), s)
  | some (id, d) =>
    if !d.readable then (.error (.invalidArgument "file descriptor is not readable"), s)
    else
      let out := readAt (s.files d.node) d.offset size
      (.ok out, s.setDescription id { d with offset := d.offset + out.length })

def written (id : ℕ) (d : OpenFileDescription) (data : List UInt8) : Service :=
  let start := d.start (s.files d.node).length
  (s.setFile d.node (writeAt (s.files d.node) start data)).setDescription id { d with offset := start + data.length }

def writeSpec (data : List UInt8) : Result ℕ × Service :=
  match s.descriptor pid fd with
  | none => (.error (.invalidArgument "file descriptor is not writable"), s)
  | some (id, d) =>
    if !d.writable then (.error (.invalidArgument "file descriptor is not writable"), s)
    else
      match refusal p (s.files d.node) (d.start (s.files d.node).length) data "write offset overflow" with
      | some status => (.error status, s)
      | none => (.ok data.length, if data = [] then s else s.written id d data)

def preadSpec (size offset : ℕ) : Result (List UInt8) :=
  match s.descriptor pid fd with
  | none => .error (.badDescriptor "bad file descriptor")
  | some (_, d) =>
    if !d.readable then .error (.badDescriptor "file descriptor is not readable")
    else .ok (readAt (s.files d.node) offset size)

def pwriteSpec (policy : PositionedWritePolicy) (data : List UInt8) (offset maximumOffset : ℕ) : Result ℕ × Service :=
  match s.descriptor pid fd with
  | none => (.error (.badDescriptor "bad file descriptor"), s)
  | some (id, d) =>
    let positioned := { d with offset := offset, flags := if policy = .native then d.flags &&& ~~~oAppend else d.flags }
    let start := positioned.start (s.files d.node).length
    if !d.writable then (.error (.badDescriptor "file descriptor is not writable"), s)
    else if data = [] then (.ok 0, s)
    else if policy = .linuxAppend ∧ (start > maximumOffset ∨ data.length > maximumOffset - start) then
      (.error (.overflow "positioned write exceeds native offset capacity"), s)
    else
      match refusal p (s.files d.node) start data "positioned write offset overflow" with
      | some status => (.error status, s)
      | none => (.ok data.length, { s.written id positioned data with descriptions := s.descriptions })

def addressed (vectors : List (IoVector ℕ)) : List (IoVector ℕ) := vectors.takeWhile fun v => !(v.null && v.buffer != 0)

def mayRead : Bool := (s.descriptor pid fd).any fun (_, d) => d.readable

def mayWrite : Bool := (s.descriptor pid fd).any fun (_, d) => d.writable

def readvSpec (vectors : List (IoVector ℕ)) : Result (List UInt8) × Service :=
  let size := ((addressed vectors).map IoVector.buffer).sum
  if s.mayRead pid fd ∧ size = 0 ∧ addressed vectors ≠ vectors then (.error (.invalidArgument "readv buffer is null"), s)
  else s.readSpec pid fd size

def accepted (contents : List UInt8) (start : ℕ) : List (IoVector (List UInt8)) → List UInt8 → List UInt8 × Option Status
  | [], data => (data, none)
  | v :: vectors, data =>
    if v.null && v.buffer != [] then (data, some (.invalidArgument "writev buffer is null"))
    else
      match refusal p (writeAt contents start data) (start + data.length) v.buffer "write offset overflow" with
      | some status => (data, some status)
      | none => accepted contents start vectors (data ++ v.buffer)

def writevSpec (vectors : List (IoVector (List UInt8))) : Result ℕ × Service :=
  match s.descriptor pid fd with
  | none => (.error (.invalidArgument "file descriptor is not writable"), s)
  | some (id, d) =>
    if !d.writable then (.error (.invalidArgument "file descriptor is not writable"), s)
    else
      match accepted p (s.files d.node) (d.start (s.files d.node).length) vectors [] with
      | ([], some status) => (.error status, s)
      | ([], none) => (.ok 0, s)
      | (data, _) => (.ok data.length, s.written id d data)

def origin (d : OpenFileDescription) : SeekWhence → ℕ
  | .set => 0
  | .current => d.offset
  | .end_ => (s.files d.node).length

def seekSpec (offset : ℤ) (whence : SeekWhence) : Result ℕ × Service :=
  match s.descriptor pid fd with
  | none => (.error (.invalidArgument "file descriptor is not seekable"), s)
  | some (id, d) =>
    let position := s.origin d whence + offset
    if position > int64Max then (.error (.overflow "seek offset overflow"), s)
    else if position < 0 then (.error (.invalidArgument "negative seek offset"), s)
    else (.ok position.toNat, s.setDescription id { d with offset := position.toNat })

/-- The bytes in front of the new size stay, and zeros fill it up. -/
def ftruncateSpec (size : ℕ) : Result Unit × Service :=
  match s.descriptor pid fd with
  | none => (.error (.badDescriptor "file descriptor is not writable"), s)
  | some (_, d) =>
    if !d.writable then (.error (.badDescriptor "file descriptor is not writable"), s)
    else
      match p.refusesTruncate (s.files d.node) size with
      | some status => (.error status, s)
      | none => (.ok (), s.setFile d.node ((range size).map fun i => (s.files d.node).getD i 0))

def setFlag (flags flag : BitVec 32) (set : Bool) : BitVec 32 := if set then flags ||| flag else flags &&& ~~~flag

def setFlagsSpec (argument : BitVec 32) : Result Unit × Service :=
  match s.descriptor pid fd with
  | none => (.error (.badDescriptor "bad file descriptor"), s)
  | some (id, d) => (.ok (), s.setDescription id
      { d with flags := setFlag (setFlag d.flags oAppend (argument.getLsbD 3)) oNonblock (argument.getLsbD 11) })

/-- The calls over POSIX files; open, dup and fork are their own specification. -/
def stepSpec : Call → Result Reply × Service
  | .read fd size => ((s.readSpec pid fd size).1.map .bytes, (s.readSpec pid fd size).2)
  | .write fd data => ((s.writeSpec p pid fd data).1.map .count, (s.writeSpec p pid fd data).2)
  | .readv fd vectors => ((s.readvSpec pid fd vectors).1.map .bytes, (s.readvSpec pid fd vectors).2)
  | .writev fd vectors => ((s.writevSpec p pid fd vectors).1.map .count, (s.writevSpec p pid fd vectors).2)
  | .pread fd size offset => ((s.preadSpec pid fd size offset).map .bytes, s)
  | .pwrite fd policy data offset maximum => ((s.pwriteSpec p pid fd policy data offset maximum).1.map .count,
      (s.pwriteSpec p pid fd policy data offset maximum).2)
  | .seek fd offset whence => ((s.seekSpec pid fd offset whence).1.map .count, (s.seekSpec pid fd offset whence).2)
  | .ftruncate fd size => ((s.ftruncateSpec p pid fd size).1.map fun _ => .done, (s.ftruncateSpec p pid fd size).2)
  | .setFlags fd argument => ((s.setFlagsSpec pid fd argument).1.map fun _ => .done, (s.setFlagsSpec pid fd argument).2)
  | call => s.step p pid call

/-- The calls that do as POSIX files do: a positioned read stays within one provider buffer, a write without data is not an
append away from the end, vectors on a descriptor without the access meet that error first, and a seek starts in its range. -/
def fits : Call → Bool
  | .write fd data => (s.descriptor pid fd).all fun (_, d) =>
      decide (data ≠ [] ∨ d.start (s.files d.node).length = d.offset)
  | .readv fd vectors => s.mayRead pid fd || vectors.head?.any fun v => !(v.null && v.buffer != 0)
  | .writev fd vectors =>
    if s.mayWrite pid fd then (s.descriptor pid fd).all fun (_, d) =>
      decide ((accepted p (s.files d.node) (d.start (s.files d.node).length) vectors []).1 ≠ [] ∨
        d.start (s.files d.node).length = d.offset)
    else vectors.head?.any fun v => !(v.null && v.buffer != [])
  | .pread fd size offset => (s.descriptor pid fd).all fun (_, d) =>
      decide (size ≤ maxFileData ∨ (s.files d.node).length - offset ≤ maxFileData)
  | .seek fd _ whence => (s.descriptor pid fd).all fun (_, d) => decide ((s.origin d whence : ℤ) ≤ int64Max)
  | _ => true

end Service

section Contents

variable {contents data more : List UInt8} {offset a b : ℕ}

lemma readAt_add : readAt contents offset (a + b) = readAt contents offset a ++ readAt contents (offset + a) b := by
  simp only [readAt]
  rw [take_add, drop_drop]

lemma readAt_short (h : (readAt contents offset a).length < a) (hb : a ≤ b) :
    readAt contents offset b = readAt contents offset a := by
  simp only [readAt, length_take, length_drop] at h ⊢
  rw [take_of_length_le (by simp; omega), take_of_length_le (by simp; omega)]

lemma length_readAt_le : (readAt contents offset a).length ≤ a := length_take_le a _

lemma length_resize : (resize contents a).length = a := by
  simp [resize]
  omega

lemma writeAt_append :
    writeAt (writeAt contents offset data) (offset + data.length) more = writeAt contents offset (data ++ more) := by
  by_cases hm : more = []
  · simp [writeAt, hm]
  by_cases hd : data = []
  · simp [writeAt, hd]
  have hleft : (resize contents offset ++ data).length = offset + data.length := by rw [length_append, length_resize]
  have hbase : resize (resize contents offset ++ data ++ contents.drop (offset + data.length)) (offset + data.length) =
      resize contents offset ++ data := by
    rw [resize, Nat.sub_eq_zero_of_le (by rw [length_append, hleft]; omega), replicate_zero, append_nil, take_left' hleft]
  simp only [writeAt, hm, hd, if_false, append_eq_nil_iff, false_and, hbase, length_append]
  rw [← drop_drop, drop_left' hleft, drop_drop]
  simp [Nat.add_assoc]

end Contents

namespace Service

variable {s : Service} {p : Provider} {pid fd id : ℕ} {d : OpenFileDescription} {data : List UInt8}

lemma descriptor_some : s.descriptor pid fd = some (id, d) ↔ s.tables pid fd = some id ∧ s.descriptions id = some d := by
  simp only [descriptor, Option.bind_eq_some_iff, Option.map_eq_some_iff, Prod.mk.injEq]
  constructor
  · rintro ⟨j, hj, e, he, rfl, rfl⟩
    exact ⟨hj, he⟩
  · rintro ⟨hj, he⟩
    exact ⟨id, hj, d, he, rfl, rfl⟩

lemma setDescription_self (h : s.descriptions id = some d) : s.setDescription id d = s := by
  unfold setDescription
  rw [← h, update_eq_self]

lemma setFile_self (node : ℕ) : s.setFile node (s.files node) = s := by
  unfold setFile
  rw [update_eq_self]

lemma descriptor_set (h : s.descriptor pid fd = some (id, d)) (e : OpenFileDescription) :
    (s.setDescription id e).descriptor pid fd = some (id, e) := by
  rw [descriptor_some] at h ⊢
  exact ⟨h.1, by simp [setDescription]⟩

lemma readLoop_eq {contents : List UInt8} {offset size fuel : ℕ} {out : List UInt8}
    (hout : out = readAt contents offset out.length) (hle : out.length ≤ size) (hf : size - out.length < fuel) :
    readLoop contents offset size fuel out = readAt contents offset size := by
  induction fuel generalizing out with
  | zero => omega
  | succ fuel ih =>
  rw [readLoop]
  by_cases hlt : out.length < size
  · rw [if_pos hlt]
    dsimp only
    have hstep : out ++ readAt contents (offset + out.length) (min (size - out.length) maxFileData) =
        readAt contents offset (out.length + min (size - out.length) maxFileData) := by
      rw [readAt_add, ← hout]
    have hchunk : (readAt contents (offset + out.length) (min (size - out.length) maxFileData)).length ≤
      min (size - out.length) maxFileData := length_readAt_le
    split
    · rename_i hshort
      refine hstep.trans (readAt_short ?_ (by omega)).symm
      rw [← hstep, length_append]
      omega
    rename_i hfull
    have hlen : (out ++ readAt contents (offset + out.length) (min (size - out.length) maxFileData)).length =
        out.length + min (size - out.length) maxFileData := by
      rw [length_append]
      omega
    have hpos : 0 < min (size - out.length) maxFileData := by
      unfold maxFileData
      omega
    exact ih (by rw [hlen, hstep]) (by omega) (by omega)
  rw [if_neg hlt, hout]
  congr 1
  omega

lemma read_eq (size : ℕ) : s.read pid fd size = s.readSpec pid fd size := by
  have hloop (contents : List UInt8) (offset : ℕ) : readLoop contents offset size (size + 1) [] = readAt contents offset size :=
    readLoop_eq (by simp [readAt]) (Nat.zero_le size) (by simp)
  unfold read readSpec
  cases s.descriptor pid fd with
  | none => rfl
  | some e => simp only [hloop]

lemma written_nil (h : s.descriptions id = some d) (hs : d.start (s.files d.node).length = d.offset) : s.written id d [] = s := by
  unfold written
  dsimp only
  rw [hs, writeAt, if_pos rfl, setFile_self, length_nil, Nat.add_zero]
  exact setDescription_self h

lemma write_eq (hf : s.fits p pid (.write fd data) = true) : s.write p pid fd data = s.writeSpec p pid fd data := by
  unfold write writeSpec
  cases hd : s.descriptor pid fd with
  | none => rfl
  | some e =>
  obtain ⟨id, d⟩ := e
  simp only [fits, hd, Option.all_some, decide_eq_true_eq] at hf
  dsimp only
  split
  · rfl
  cases refusal p (s.files d.node) (d.start (s.files d.node).length) data "write offset overflow" with
  | some status => rfl
  | none =>
  by_cases hnil : data = []
  · rw [if_pos hnil]
    subst hnil
    exact congrArg (Prod.mk _) (written_nil (descriptor_some.mp hd).2 (hf.resolve_left (by simp)))
  · rw [if_neg hnil]
    rfl

lemma pread_eq {size offset : ℕ} (hf : s.fits p pid (.pread fd size offset) = true) :
    s.pread pid fd size offset = s.preadSpec pid fd size offset := by
  unfold pread preadSpec
  cases hd : s.descriptor pid fd with
  | none => rfl
  | some e =>
  obtain ⟨id, d⟩ := e
  simp only [fits, hd, Option.all_some, decide_eq_true_eq] at hf
  dsimp only
  split
  · rfl
  split
  · rename_i h0
    rw [h0]
    rfl
  congr 1
  rcases hf with hf | hf
  · rw [Nat.min_eq_left hf]
  rcases Nat.le_total size maxFileData with h | h
  · rw [Nat.min_eq_left h]
  · rw [Nat.min_eq_right h, readAt, readAt, take_of_length_le (by simpa using hf), take_of_length_le (by simp; omega)]

lemma pwrite_eq (policy : PositionedWritePolicy) (offset maximum : ℕ) :
    s.pwriteWithPolicy p pid fd policy data offset maximum = s.pwriteSpec p pid fd policy data offset maximum := by
  unfold pwriteWithPolicy pwriteSpec
  cases s.descriptor pid fd with
  | none => rfl
  | some e =>
  obtain ⟨id, d⟩ := e
  have hstart : ({ d with offset := offset, flags := if policy = .native then d.flags &&& ~~~oAppend else d.flags } :
      OpenFileDescription).start (s.files d.node).length =
      if policy = .linuxAppend ∧ d.appends = true then (s.files d.node).length else offset := by
    cases policy <;> simp [OpenFileDescription.start, OpenFileDescription.appends, BitVec.and_assoc]
  simp only [hstart]
  generalize (if policy = .linuxAppend ∧ d.appends = true then (s.files d.node).length else offset) = start at hstart ⊢
  split
  · rfl
  split
  · rfl
  split
  · rfl
  cases refusal p (s.files d.node) start data "positioned write offset overflow" with
  | some status => rfl
  | none =>
    simp only [written, hstart]
    rfl

lemma seekBase_eq {whence : SeekWhence} (h : (s.origin d whence : ℤ) ≤ int64Max) :
    s.seekBase d whence = .ok (s.origin d whence : ℤ) := by
  cases whence with
  | set => rfl
  | current =>
    have hlt : (d.offset : ℤ) ≤ 2 ^ 63 - 1 := h
    have hint : (BitVec.ofNat 64 d.offset).toInt = d.offset := by
      rw [BitVec.toInt_eq_toNat_of_lt] <;> simp <;> omega
    rw [seekBase, hint]
    rfl
  | end_ => exact if_neg (Int.not_lt.mpr h)

lemma seek_eq {offset : ℤ} {whence : SeekWhence} (hf : s.fits p pid (.seek fd offset whence) = true) :
    s.seek pid fd offset whence = s.seekSpec pid fd offset whence := by
  unfold seek seekSpec
  cases hd : s.descriptor pid fd with
  | none => rfl
  | some e =>
  obtain ⟨id, d⟩ := e
  simp only [fits, hd, Option.all_some, decide_eq_true_eq] at hf
  dsimp only
  rw [seekBase_eq hf]
  dsimp only
  by_cases hover : s.origin d whence + offset > int64Max
  · rw [if_pos hover, if_pos ⟨by omega, by omega⟩]
  · rw [if_neg hover, if_neg (by omega)]

lemma resize_eq (contents : List UInt8) (size : ℕ) : resize contents size = (range size).map fun i => contents.getD i 0 := by
  refine ext_getElem (by simp [length_resize]) fun i h1 h2 => ?_
  rw [length_resize] at h1
  by_cases hi : i < contents.length
  · simp [resize, hi]
  · simp [resize, getElem_append, hi]

lemma ftruncate_eq (size : ℕ) : s.ftruncate p pid fd size = s.ftruncateSpec p pid fd size := by
  unfold ftruncate ftruncateSpec
  simp only [resize_eq] <;> rfl

lemma setFlag_getLsbD (flags : BitVec 32) (k : ℕ) (set : Bool) (i : ℕ) (hi : i < 32) :
    (setFlag flags (BitVec.twoPow 32 k) set).getLsbD i = if i = k then set else flags.getLsbD i := by
  unfold setFlag
  by_cases h : i = k
  · subst h
    cases set <;> simp [hi]
  · cases set <;> simp [h, hi]

lemma setFlag_eq (flags argument : BitVec 32) :
    (flags &&& ~~~(oAppend ||| oNonblock)) ||| (argument &&& (oAppend ||| oNonblock)) =
      setFlag (setFlag flags oAppend (argument.getLsbD 3)) oNonblock (argument.getLsbD 11) := by
  have h1 : oAppend = BitVec.twoPow 32 3 := rfl
  have h2 : oNonblock = BitVec.twoPow 32 11 := rfl
  refine BitVec.eq_of_getLsbD_eq fun i hi => ?_
  rw [h1, h2, setFlag_getLsbD _ _ _ _ hi, setFlag_getLsbD _ _ _ _ hi]
  by_cases h11 : i = 11
  · subst h11
    simp
  by_cases h3 : i = 3
  · subst h3
    simp
  · simp [h3, h11, hi]

lemma setFlags_eq (argument : BitVec 32) : s.setFlags pid fd argument = s.setFlagsSpec pid fd argument := by
  unfold setFlags setFlagsSpec
  simp only [setFlag_eq] <;> rfl

lemma readSpec_moved (hd : s.descriptor pid fd = some (id, d)) (hr : d.readable = true) (k n : ℕ) :
    (s.setDescription id { d with offset := d.offset + k }).readSpec pid fd n =
      (.ok (readAt (s.files d.node) (d.offset + k) n),
        s.setDescription id { d with offset := d.offset + (k + (readAt (s.files d.node) (d.offset + k) n).length) }) := by
  unfold readSpec
  rw [descriptor_set hd]
  simp [hr, setDescription, Nat.add_assoc]

variable {vectors : List (IoVector ℕ)} {call : Call}

lemma readv_eq_of (hd : s.descriptor pid fd = some (id, d)) (hr : d.readable = true)
    {total : List UInt8} (ht : total = readAt (s.files d.node) d.offset total.length) :
    readv pid fd vectors total (s.setDescription id { d with offset := d.offset + total.length }) =
      let size := total.length + ((addressed vectors).map IoVector.buffer).sum
      let out := readAt (s.files d.node) d.offset size
      if size = 0 ∧ addressed vectors ≠ vectors then
        (.error (.invalidArgument "readv buffer is null"), s.setDescription id { d with offset := d.offset + total.length })
      else (.ok out, s.setDescription id { d with offset := d.offset + out.length }) := by
  induction vectors generalizing total with
  | nil => simp [readv, addressed, ← ht]
  | cons v vectors ih =>
  rw [readv]
  by_cases hnull : (v.null && v.buffer != 0) = true
  · have haddr : addressed (v :: vectors) = [] := by
      unfold addressed
      rw [takeWhile_cons_of_neg (by simp [hnull])]
    rw [if_pos hnull, haddr]
    by_cases h0 : total = []
    · simp [h0]
    · simp [h0, ← ht]
  have haddr : addressed (v :: vectors) = v :: addressed vectors := by
    unfold addressed
    rw [takeWhile_cons_of_pos (by simp [hnull])]
  have hstep : total ++ readAt (s.files d.node) (d.offset + total.length) v.buffer =
      readAt (s.files d.node) d.offset (total.length + v.buffer) := by
    rw [readAt_add, ← ht]
  have hle : (readAt (s.files d.node) (d.offset + total.length) v.buffer).length ≤ v.buffer := length_readAt_le
  rw [if_neg hnull, read_eq, readSpec_moved hd hr, haddr]
  simp only [map_cons, sum_cons]
  split
  · -- a short read: nothing is behind it, so the rest of the vectors adds nothing
    rename_i hshort
    have hall : readAt (s.files d.node) d.offset (total.length + (v.buffer + ((addressed vectors).map IoVector.buffer).sum)) =
        total ++ readAt (s.files d.node) (d.offset + total.length) v.buffer := by
      rw [hstep]
      refine readAt_short ?_ (by omega)
      rw [← hstep, length_append]
      omega
    rw [hall, if_neg (by omega), length_append]
  rename_i hfull
  have hlen : (total ++ readAt (s.files d.node) (d.offset + total.length) v.buffer).length = total.length + v.buffer := by
    rw [length_append]
    omega
  have hrest := @ih (total ++ readAt (s.files d.node) (d.offset + total.length) v.buffer) (by rw [hlen, hstep])
  rw [length_append, not_not.mp hfull] at hrest
  rw [not_not.mp hfull, hrest]
  simp only [Nat.add_assoc, ne_eq, cons.injEq, true_and]
  split
  · rename_i h0
    rw [show v.buffer = 0 by omega, Nat.add_zero]
  · rfl

lemma readSpec_denied (h : s.mayRead pid fd = false) (size : ℕ) :
    s.readSpec pid fd size = (.error (.invalidArgument "file descriptor is not readable"), s) := by
  unfold mayRead at h
  unfold readSpec
  cases hd : s.descriptor pid fd with
  | none => rfl
  | some e =>
    have hr : e.2.readable = false := by simpa [hd] using h
    simp [hr]

lemma readv_eq (hf : s.fits p pid (.readv fd vectors) = true) : readv pid fd vectors [] s = s.readvSpec pid fd vectors := by
  cases hm : s.mayRead pid fd with
  | false =>
    cases vectors with
    | nil => simp [fits, hm] at hf
    | cons v vectors =>
    have hnull : ¬(v.null && v.buffer != 0) = true := by
      intro hnull
      simp only [fits, hm, Bool.false_or, head?_cons, Option.any_some, hnull, Bool.not_true, Bool.false_eq_true] at hf
    rw [readv, if_neg hnull, read_eq, readSpec_denied hm, readvSpec, if_neg (by simp [hm]), readSpec_denied hm]
    rfl
  | true =>
  obtain ⟨⟨id, d⟩, hd, hr⟩ := (Option.any_eq_true _ _).mp hm
  have hself : s.setDescription id { d with offset := d.offset + ([] : List UInt8).length } = s :=
    setDescription_self (descriptor_some.mp hd).2
  have hread := readSpec_moved hd hr 0 ((addressed vectors).map IoVector.buffer).sum
  have h := @readv_eq_of s pid fd id d vectors hd hr [] (by simp [readAt])
  rw [hself] at h
  rw [Nat.add_zero] at hread
  rw [show s.setDescription id { d with offset := d.offset } = s from hself] at hread
  rw [h, readvSpec, hread]
  simp [hm]

lemma length_writeAt_end (contents data : List UInt8) :
    (writeAt contents contents.length data).length = contents.length + data.length := by
  unfold writeAt
  split
  · simp_all
  · rw [length_append, length_append, length_resize]
    simp

lemma written_start (d : OpenFileDescription) (contents data : List UInt8) :
    ({ d with offset := d.start contents.length + data.length } : OpenFileDescription).start
      (writeAt contents (d.start contents.length) data).length = d.start contents.length + data.length := by
  have happ (k : ℕ) : ({ d with offset := k } : OpenFileDescription).appends = d.appends := rfl
  unfold OpenFileDescription.start
  rw [happ]
  split
  · exact length_writeAt_end contents data
  · rfl

lemma write_of_descriptor (hd : s.descriptor pid fd = some (id, d)) (hw : d.writable = true) (data : List UInt8) :
    s.write p pid fd data =
      match refusal p (s.files d.node) (d.start (s.files d.node).length) data "write offset overflow" with
      | some status => (.error status, s)
      | none => (.ok data.length, s.written id d data) := by
  unfold write
  rw [hd]
  dsimp only
  rw [if_neg (by simp [hw])]
  rfl

lemma write_written (hd : s.descriptor pid fd = some (id, d)) (hw : d.writable = true) (acc data : List UInt8) :
    (s.written id d acc).write p pid fd data =
      match refusal p (writeAt (s.files d.node) (d.start (s.files d.node).length) acc)
        (d.start (s.files d.node).length + acc.length) data "write offset overflow" with
      | some status => (.error status, s.written id d acc)
      | none => (.ok data.length, s.written id d (acc ++ data)) := by
  have hd' : (s.written id d acc).descriptor pid fd =
      some (id, { d with offset := d.start (s.files d.node).length + acc.length }) := by
    rw [descriptor_some] at hd ⊢
    exact ⟨hd.1, by simp [written, setDescription]⟩
  have hfile : (s.written id d acc).files d.node = writeAt (s.files d.node) (d.start (s.files d.node).length) acc := by
    simp [written, setDescription, setFile]
  rw [write_of_descriptor hd' hw]
  simp only [hfile, written_start]
  cases refusal p _ _ data "write offset overflow" with
  | some status => rfl
  | none =>
  have htwice : (s.written id d acc).written id { d with offset := d.start (s.files d.node).length + acc.length } data =
      s.written id d (acc ++ data) := by
    unfold written at hfile ⊢
    simp only [hfile, written_start, writeAt_append, length_append, ← Nat.add_assoc]
    simp [setFile, setDescription]
  rw [htwice]

def ending (s : Service) (id : ℕ) (d : OpenFileDescription) (result : List UInt8 × Option Status) : Result ℕ × Service :=
  (match result with
    | ([], some status) => .error status
    | (data, _) => .ok data.length, s.written id d result.1)

lemma writev_written (hd : s.descriptor pid fd = some (id, d)) (hw : d.writable = true) (acc : List UInt8)
    (vectors : List (IoVector (List UInt8))) : writev p pid fd vectors acc.length (s.written id d acc) =
      s.ending id d (accepted p (s.files d.node) (d.start (s.files d.node).length) vectors acc) := by
  have hstop (status : Status) : ((if acc.length = 0 then .error status else .ok acc.length : Result ℕ), s.written id d acc) =
      s.ending id d (acc, some status) := by
    cases acc <;> simp [ending]
  induction vectors generalizing acc with
  | nil => cases acc <;> simp [writev, accepted, ending]
  | cons v vectors ih =>
  rw [writev, accepted]
  split
  · exact hstop _
  rw [write_written hd hw]
  cases refusal p (writeAt (s.files d.node) (d.start (s.files d.node).length) acc)
    (d.start (s.files d.node).length + acc.length) v.buffer "write offset overflow" with
  | some status => exact hstop status
  | none =>
  dsimp only
  rw [if_neg (by simp), ← length_append]
  refine ih (acc ++ v.buffer) fun status => ?_
  cases h : acc ++ v.buffer <;> simp [ending]

lemma writev_eq {vectors : List (IoVector (List UInt8))} (hf : s.fits p pid (.writev fd vectors) = true) :
    writev p pid fd vectors 0 s = s.writevSpec p pid fd vectors := by
  cases hm : s.mayWrite pid fd with
  | false =>
    cases vectors with
    | nil => simp [fits, hm] at hf
    | cons v vectors =>
    have hnull : ¬(v.null && v.buffer != []) = true := by
      intro hnull
      simp only [fits, hm, Bool.false_eq_true, if_false, head?_cons, Option.any_some, hnull, Bool.not_true] at hf
    unfold mayWrite at hm
    rw [writev, if_neg hnull, write, writevSpec]
    cases hd : s.descriptor pid fd with
    | none => rfl
    | some e =>
      have hw : e.2.writable = false := by simpa [hd] using hm
      simp [hw]
  | true =>
  obtain ⟨⟨id, d⟩, hd, hw⟩ := (Option.any_eq_true _ _).mp hm
  simp only [fits, hm, hd, if_true, Option.all_some, decide_eq_true_eq] at hf
  have hend : ∀ result : List UInt8 × Option Status, result.1 ≠ [] ∨ d.start (s.files d.node).length = d.offset →
      s.ending id d result = match result with
        | ([], some status) => (.error status, s)
        | ([], none) => (.ok 0, s)
        | (data, _) => (.ok data.length, s.written id d data) := by
    rintro ⟨_ | ⟨b, data⟩, stop⟩ h
    · have hs := written_nil (descriptor_some.mp hd).2 (h.resolve_left (by simp))
      cases stop <;> simp [ending, hs]
    · rfl
  unfold writevSpec
  rw [hd]
  dsimp only
  rw [if_neg (by simpa using hw), ← hend _ hf]
  by_cases hs : d.start (s.files d.node).length = d.offset
  · have h := writev_written (p := p) hd hw [] vectors
    rwa [written_nil (descriptor_some.mp hd).2 hs] at h
  -- the first element leaves the offset at the end of the file, from where the others go on
  have hne := hf.resolve_right hs
  cases vectors with
  | nil => simp [accepted] at hne
  | cons v vectors =>
  rw [accepted, writeAt, if_pos rfl, length_nil, Nat.add_zero] at hne ⊢
  rw [writev]
  split
  · rename_i hnull
    simp [hnull] at hne
  rename_i hnull
  rw [if_neg hnull] at hne
  rw [write_of_descriptor hd hw]
  cases hr : refusal p (s.files d.node) (d.start (s.files d.node).length) v.buffer "write offset overflow" with
  | some status => simp [hr] at hne
  | none =>
  dsimp only
  rw [if_neg (by simp), Nat.zero_add, nil_append]
  exact writev_written hd hw v.buffer vectors

lemma step_eq (hf : s.fits p pid call = true) : s.step p pid call = s.stepSpec p pid call := by
  cases call with
  | read fd size => simp only [step, stepSpec, read_eq]
  | write fd data => simp only [step, stepSpec, write_eq hf]
  | readv fd vectors => simp only [step, stepSpec, readv_eq hf]
  | writev fd vectors => simp only [step, stepSpec, writev_eq hf]
  | pread fd size offset => simp only [step, stepSpec, pread_eq hf]
  | pwrite fd policy data offset maximum => simp only [step, stepSpec, pwrite_eq]
  | seek fd offset whence => simp only [step, stepSpec, seek_eq hf]
  | ftruncate fd size => simp only [step, stepSpec, ftruncate_eq]
  | setFlags fd argument => simp only [step, stepSpec, setFlags_eq]
  | _ => rfl

structure Touches {α : Type} (s : Service) (r : Result α × Service) (id : Option ℕ) : Prop where
  tables : r.2.tables = s.tables
  others : ∀ j, id ≠ some j → r.2.descriptions j = s.descriptions j
  live : ∀ j, s.descriptions j ≠ none → r.2.descriptions j ≠ none
  failed : ∀ status, r.1 = .error status → r.2 = s

section Touches

variable {α β : Type} {o : Option ℕ}

lemma Touches.refl (x : Result α) : Touches s (x, s) o := ⟨rfl, fun _ _ => rfl, fun _ h => h, fun _ _ => rfl⟩

lemma Touches.files (a : α) {s' : Service} (ht : s'.tables = s.tables) (he : s'.descriptions = s.descriptions) :
    Touches s (.ok a, s') o :=
  ⟨ht, fun j _ => congrFun he j, fun _ h => he ▸ h, fun _ h => nomatch h⟩

lemma Touches.set (hd : s.descriptor pid fd = some (id, d)) (a : α) {s' : Service} (ht : s'.tables = s.tables)
    (he : s'.descriptions = s.descriptions) (e : OpenFileDescription) :
    Touches s (.ok a, s'.setDescription id e) (s.tables pid fd) := by
  refine ⟨ht, fun j hj => ?_, fun j hj => ?_, fun _ h => nomatch h⟩
  · rw [(descriptor_some.mp hd).1] at hj
    have hne : j ≠ id := fun h => hj (congrArg some h.symm)
    rw [← he]
    exact update_of_ne hne _ _
  by_cases h : j = id
  · simp [setDescription, h]
  · simpa [setDescription, h, he] using hj

lemma Touches.written (hd : s.descriptor pid fd = some (id, d)) (a : α) (data : List UInt8) :
    Touches s (.ok a, s.written id d data) (s.tables pid fd) := by
  refine .set hd a ?_ ?_ _ <;> rfl

lemma Touches.map {r : Result α × Service} (h : Touches s r o) (f : α → β) : Touches s (r.1.map f, r.2) o := by
  refine ⟨h.tables, h.others, h.live, fun status hs => ?_⟩
  cases hr : r.1 with
  | error e => exact h.failed e hr
  | ok a =>
    rw [hr] at hs
    cases hs

lemma readSpec_touches (size : ℕ) : Touches s (s.readSpec pid fd size) (s.tables pid fd) := by
  unfold readSpec
  cases hd : s.descriptor pid fd with
  | none => exact .refl _
  | some e =>
  dsimp only
  split
  · exact .refl _
  · exact .set hd _ rfl rfl _

lemma readvSpec_touches (vectors : List (IoVector ℕ)) : Touches s (s.readvSpec pid fd vectors) (s.tables pid fd) := by
  unfold readvSpec
  dsimp only
  split
  · exact .refl _
  · exact readSpec_touches _

lemma writeSpec_touches : Touches s (s.writeSpec p pid fd data) (s.tables pid fd) := by
  unfold writeSpec
  cases hd : s.descriptor pid fd with
  | none => exact .refl _
  | some e =>
  dsimp only
  split
  · exact .refl _
  split
  · exact .refl _
  split
  · exact .refl _
  · exact .written hd _ _

lemma writevSpec_touches (vectors : List (IoVector (List UInt8))) :
    Touches s (s.writevSpec p pid fd vectors) (s.tables pid fd) := by
  unfold writevSpec
  cases hd : s.descriptor pid fd with
  | none => exact .refl _
  | some e =>
  dsimp only
  split
  · exact .refl _
  split
  · exact .refl _
  · exact .refl _
  · exact .written hd _ _

lemma pwriteSpec_touches (policy : PositionedWritePolicy) (offset maximum : ℕ) :
    Touches s (s.pwriteSpec p pid fd policy data offset maximum) (s.tables pid fd) := by
  unfold pwriteSpec
  cases s.descriptor pid fd with
  | none => exact .refl _
  | some e =>
  dsimp only
  generalize OpenFileDescription.start _ _ = start
  split
  · exact .refl _
  split
  · exact .refl _
  split
  · exact .refl _
  split
  · exact .refl _
  · exact .files _ rfl rfl

lemma seekSpec_touches (offset : ℤ) (whence : SeekWhence) : Touches s (s.seekSpec pid fd offset whence) (s.tables pid fd) := by
  unfold seekSpec
  cases hd : s.descriptor pid fd with
  | none => exact .refl _
  | some e =>
  dsimp only
  split
  · exact .refl _
  split
  · exact .refl _
  · exact .set hd _ rfl rfl _

lemma ftruncateSpec_touches (size : ℕ) : Touches s (s.ftruncateSpec p pid fd size) (s.tables pid fd) := by
  unfold ftruncateSpec
  cases s.descriptor pid fd with
  | none => exact .refl _
  | some e =>
  dsimp only
  split
  · exact .refl _
  split
  · exact .refl _
  · exact .files _ rfl rfl

lemma setFlagsSpec_touches (argument : BitVec 32) : Touches s (s.setFlagsSpec pid fd argument) (s.tables pid fd) := by
  unfold setFlagsSpec
  cases hd : s.descriptor pid fd with
  | none => exact .refl _
  | some e => exact .set hd _ rfl rfl _

end Touches

def target : Call → Option ℕ
  | .read fd _ | .write fd _ | .readv fd _ | .writev fd _ | .pread fd _ _ | .pwrite fd _ _ _ _ | .seek fd _ _
  | .ftruncate fd _ | .setFlags fd _ => some fd
  | .open_ _ _ | .dup _ _ | .fork _ => none

lemma stepSpec_touches (s : Service) (p : Provider) (pid : ℕ) (ht : target call = some fd) :
    Touches s (s.stepSpec p pid call) (s.tables pid fd) := by
  cases call <;> cases ht
  case read size => exact (readSpec_touches size).map _
  case write data => exact writeSpec_touches.map _
  case readv vectors => exact (readvSpec_touches vectors).map _
  case writev vectors => exact (writevSpec_touches vectors).map _
  case pread => exact .refl _
  case pwrite policy data offset maximum => exact (pwriteSpec_touches policy offset maximum).map _
  case seek offset whence => exact (seekSpec_touches offset whence).map _
  case ftruncate size => exact (ftruncateSpec_touches size).map _
  case setFlags argument => exact (setFlagsSpec_touches argument).map _

lemma allocateDescription_free (h : s.allocateDescription = .ok id) : s.descriptions id = none := by
  unfold allocateDescription at h
  cases hf : (range maxOpenDescriptions).find? fun i => decide (3 ≤ i) && (s.descriptions i).isNone with
  | none => simp [hf] at h
  | some j =>
  have hj := find?_some hf
  simp only [hf, Except.ok.injEq] at h
  simp only [Bool.and_eq_true, Option.isNone_iff_eq_none] at hj
  exact h ▸ hj.2

lemma open_cases (s : Service) (p : Provider) (pid : ℕ) (resolved : Result (ℕ × Bool)) (flags : BitVec 32) :
    (∃ status, s.open_ p pid resolved flags = (.error status, s)) ∨
      ∃ fd id d s', s.open_ p pid resolved flags = (.ok fd, (setDescription s' id d).install pid fd id) ∧ d.offset = 0 ∧
        s.descriptions id = none ∧ s'.descriptions = s.descriptions ∧ s'.tables = s.tables := by
  unfold open_
  split
  · exact .inl ⟨_, rfl⟩
  cases s.allocateFd pid 0 with
  | error status => exact .inl ⟨status, rfl⟩
  | ok fd =>
  cases ha : s.allocateDescription with
  | error status => exact .inl ⟨status, rfl⟩
  | ok id =>
  have hfree := allocateDescription_free ha
  cases resolved with
  | error status => exact .inl ⟨status, rfl⟩
  | ok node =>
  dsimp only
  generalize (if (!node.2 && flags &&& oTrunc != 0) = true then p.refusesTruncate (s.files node.1) 0 else none) = truncated
  cases truncated with
  | some status => exact .inl ⟨status, rfl⟩
  | none =>
    refine .inr ⟨fd, id, _, _, rfl, rfl, hfree, ?_⟩
    split <;> exact ⟨rfl, rfl⟩

lemma duplicate_cases (s : Service) (pid fd minimum : ℕ) : (∃ status, s.duplicate pid fd minimum = (.error status, s)) ∨
    ∃ new id, s.duplicate pid fd minimum = (.ok new, s.install pid new id) ∧ s.tables pid fd = some id := by
  unfold duplicate
  cases hd : s.descriptor pid fd with
  | none => exact .inl ⟨_, rfl⟩
  | some e =>
  cases s.allocateFd pid minimum with
  | error status => exact .inl ⟨status, rfl⟩
  | ok new => exact .inr ⟨new, e.1, rfl, (descriptor_some.mp hd).1⟩

lemma install_tables {q g j : ℕ} (h : (s.install pid fd id).tables q g = some j) :
    q = pid ∧ g = fd ∧ j = id ∨ s.tables q g = some j := by
  unfold install at h
  by_cases hq : q = pid
  · subst hq
    by_cases hg : g = fd
    · subst hg
      simp only [update_self, Option.some.injEq] at h
      exact .inl ⟨rfl, rfl, h.symm⟩
    · simp only [update_self, update_of_ne hg] at h
      exact .inr h
  · simp only [update_of_ne hq] at h
    exact .inr h

def Bound (s : Service) : Prop := ∀ q g id, s.tables q g = some id → s.descriptions id ≠ none

lemma Bound.opened (hb : s.Bound) {resolved : Result (ℕ × Bool)} {flags : BitVec 32}
    (h : (s.open_ p pid resolved flags).1 = .ok fd) :
    ∃ id d, (s.open_ p pid resolved flags).2.descriptor pid fd = some (id, d) ∧ d.offset = 0 ∧
      ∀ q g, (s.open_ p pid resolved flags).2.tables q g = some id → q = pid ∧ g = fd := by
  rcases open_cases s p pid resolved flags with ⟨status, he⟩ | ⟨new, id, d, s', he, h0, hfree, hd, ht⟩
  · rw [he] at h
    cases h
  rw [he] at h ⊢
  cases h
  refine ⟨id, d, descriptor_some.mpr ?_, h0, fun q g hg => ?_⟩
  · simp [install, setDescription]
  rcases install_tables hg with ⟨hq, hg, -⟩ | hold
  · exact ⟨hq, hg⟩
  · exact absurd hfree (hb q g id (ht ▸ hold))

lemma Bound.step (hb : s.Bound) (hf : s.fits p pid call = true) : (s.step p pid call).2.Bound := by
  cases ht : target call with
  | some fd =>
    have h := stepSpec_touches s p pid ht
    rw [← step_eq hf] at h
    intro q g id hg
    rw [h.tables] at hg
    exact h.live id (hb q g id hg)
  | none =>
  cases call with
  | open_ resolved flags =>
    rcases open_cases s p pid resolved flags with ⟨status, he⟩ | ⟨new, id, d, s', he, -, -, hd, ht⟩
    · simpa only [step, he] using hb
    intro q g j hg
    simp only [step, he] at hg ⊢
    by_cases hj : j = id
    · simp [install, setDescription, hj]
    rcases install_tables hg with ⟨-, -, h⟩ | hold
    · exact absurd h hj
    · simpa [install, setDescription, hj, hd] using hb q g j (ht ▸ hold)
  | dup fd minimum =>
    rcases duplicate_cases s pid fd minimum with ⟨status, he⟩ | ⟨new, id, he, hid⟩
    · simpa only [step, he] using hb
    intro q g j hg
    simp only [step, he] at hg ⊢
    rcases install_tables hg with ⟨-, -, rfl⟩ | hold
    · exact hb pid fd j hid
    · exact hb q g j hold
  | fork child =>
    intro q g j hg
    simp only [step, fork] at hg ⊢
    by_cases hq : q = child
    · rw [hq, update_self] at hg
      exact hb pid g j hg
    · rw [update_of_ne hq] at hg
      exact hb q g j hg
  | _ => cases ht

lemma step_failed (hf : s.fits p pid call = true) {status : Status}
    (h : (s.step p pid call).1 = .error status) : (s.step p pid call).2 = s := by
  cases ht : target call with
  | some fd =>
    rw [step_eq hf] at h ⊢
    exact (stepSpec_touches s p pid ht).failed status h
  | none =>
  cases call with
  | open_ resolved flags =>
    rcases open_cases s p pid resolved flags with ⟨e, he⟩ | ⟨new, id, d, s', he, -⟩
    · simp only [step, he]
    · simp [step, he, Except.map] at h
  | dup fd minimum =>
    rcases duplicate_cases s pid fd minimum with ⟨e, he⟩ | ⟨new, id, he, -⟩
    · simp only [step, he]
    · simp [step, he, Except.map] at h
  | fork child => cases h
  | _ => cases ht

lemma preadSpec_seek {size offset : ℕ} (hm : s.mayRead pid fd = true) (ho : offset ≤ int64Max.toNat) :
    s.preadSpec pid fd size offset = ((s.seek pid fd offset .set).2.read pid fd size).1 := by
  obtain ⟨⟨id, d⟩, hd, hr⟩ := (Option.any_eq_true _ _).mp hm
  have hmax : (offset : ℤ) ≤ int64Max := by
    have hpos : (int64Max.toNat : ℤ) = int64Max := rfl
    omega
  have hseek : s.seek pid fd offset .set = (.ok offset, s.setDescription id { d with offset := offset }) := by
    rw [seek_eq (p := ⟨fun _ _ _ => none, fun _ _ => none⟩) (by simp [fits, hd, origin, int64Max]), seekSpec, hd]
    simp [origin, Int.not_lt.mpr hmax]
  rw [hseek, read_eq, preadSpec, readSpec, hd, descriptor_set hd]
  dsimp only at hr ⊢
  rw [hr]
  rfl

structure Refines (s : Service) (p : Provider) (pid : ℕ) (call : Call) : Prop where
  step : s.step p pid call = s.stepSpec p pid call
  failed : ∀ status, (s.step p pid call).1 = .error status → (s.step p pid call).2 = s
  touches : ∀ fd, target call = some fd → Touches s (s.step p pid call) (s.tables pid fd)
  opened : ∀ resolved flags fd, call = .open_ resolved flags → (s.open_ p pid resolved flags).1 = .ok fd →
    ∃ id d, (s.step p pid call).2.descriptor pid fd = some (id, d) ∧ d.offset = 0 ∧
      ∀ q g, (s.step p pid call).2.tables q g = some id → q = pid ∧ g = fd
  duplicated : ∀ fd minimum new, call = .dup fd minimum → (s.duplicate pid fd minimum).1 = .ok new →
    ∃ id, s.tables pid fd = some id ∧ (s.step p pid call).2 = s.install pid new id
  forked : ∀ child, call = .fork child → (s.step p pid call).2.tables child = s.tables pid
  positioned : ∀ fd size offset, call = .pread fd size offset → s.mayRead pid fd = true → offset ≤ int64Max.toNat →
    s.pread pid fd size offset = ((s.seek pid fd offset .set).2.read pid fd size).1

inductive Reached (p : Provider) : Service → Prop
  | start (files : ℕ → List UInt8) : Reached p ⟨files, fun _ => none, fun _ _ => none⟩
  | step {s : Service} (h : Reached p s) (pid : ℕ) (call : Call) (hf : s.fits p pid call = true) :
    Reached p (s.step p pid call).2

lemma Reached.bound (h : Reached p s) : s.Bound := by
  induction h with
  | start files => exact fun _ _ _ h => nomatch h
  | step h pid call hf ih => exact ih.step hf

theorem descriptors_refine_files (h : Reached p s) {call : Call} (hf : s.fits p pid call = true) : s.Refines p pid call where
  step := step_eq hf
  failed _ := step_failed hf
  touches fd ht := by
    rw [step_eq hf]
    exact stepSpec_touches s p pid ht
  opened resolved flags fd hc ho := by
    subst hc
    exact h.bound.opened ho
  duplicated fd minimum new hc hn := by
    subst hc
    rcases duplicate_cases s pid fd minimum with ⟨e, he⟩ | ⟨k, id, he, hid⟩
    · simp [he] at hn
    · simp only [he, Except.ok.injEq] at hn
      exact ⟨id, hid, by simp only [Service.step, he, hn]⟩
  forked child hc := by
    subst hc
    exact update_self _ _ _
  positioned fd size offset hc hm ho := by
    subst hc
    rw [pread_eq hf]
    exact preadSpec_seek hm ho

def roomy : Provider := ⟨fun _ _ _ => none, fun _ _ => none⟩

def withFile (contents : List UInt8) (flags : BitVec 32) : Service :=
  (Service.step ⟨fun _ => contents, fun _ => none, fun _ _ => none⟩ roomy 1 (.open_ (.ok (0, false)) flags)).2

lemma withFile_reached (contents : List UInt8) (flags : BitVec 32) : Reached roomy (withFile contents flags) :=
  (Reached.start fun _ => contents).step 1 _ rfl

theorem descriptors_refine_files_append : (withFile [1, 2] 0xA).fits roomy 1 (.writev 0 [⟨false, []⟩, ⟨false, [3]⟩]) = true ∧
      (withFile [1, 2] 0xA).Refines roomy 1 (.writev 0 [⟨false, []⟩, ⟨false, [3]⟩]) :=
  ⟨by decide +kernel, descriptors_refine_files (withFile_reached [1, 2] 0xA) (by decide +kernel)⟩

/-- A positioned read longer than a provider buffer comes back short, a write without data moves an appending offset to the end
of the file, and an empty vector is read through a closed descriptor. -/
theorem descriptors_do_not_refine_files :
    (∃ s, Reached roomy s ∧ ¬s.Refines roomy 1 (.pread 0 5000 0)) ∧ (∃ s, Reached roomy s ∧ ¬s.Refines roomy 1 (.write 0 [])) ∧
      ∃ s, Reached roomy s ∧ ¬s.Refines roomy 1 (.readv 5 []) := by
  refine ⟨⟨_, withFile_reached (replicate 5000 7) 0, fun h => ?_⟩, ⟨_, withFile_reached [1] 0xA, fun h => ?_⟩,
    _, withFile_reached [] 0, fun h => ?_⟩
  · have hlength : (replicate 5000 (7 : UInt8)).length = 5000 := length_replicate
    generalize replicate 5000 (7 : UInt8) = contents at h hlength
    have hread : (Except.ok (.bytes (readAt contents 0 4096)) : Result Reply) = .ok (.bytes (readAt contents 0 5000)) :=
      congrArg Prod.fst h.step
    have hshort := congrArg length (Reply.bytes.inj (Except.ok.inj hread))
    simp only [readAt, length_take, length_drop, hlength] at hshort
    omega
  · have hoffset := congrArg (fun r => (r.2.descriptions 3).map OpenFileDescription.offset) h.step
    exact absurd hoffset (by decide +kernel)
  · cases congrArg Prod.fst h.step

end Service

end ObfuscationKernel.Posix
