import Nucleus.Proofs.EmptyWrites
import Nucleus.Proofs.OpenFiles
import Nucleus.Proofs.Truncation

/-!
# Files as bytes

Behind descriptors, cursors, the registry and the medium a file is nothing but the bytes that are stored under its name. A read
through a descriptor brings those from the cursor on, a write puts its bytes there and zeros before them as far as they are missing,
and whoever has the file open reads what was written. `Machine.files_are_bytes` says so of every run; the laws of a single call
(`Kernel.Sound.reads`, `Kernel.Sound.writes`) need no more of the kernel than that its open files are sound.
-/

namespace Nucleus

/-! ## Bytes in an object -/

namespace RamDisk

variable {d : RamDisk} {id : ObjectId} {contents data : List UInt8} {position : Nat}

/-- Contents with bytes written at a position: what comes before them are the old contents, and zeros as far as these are too short;
an older tail stays. -/
def Written (contents : List UInt8) (position : Nat) (data after : List UInt8) : Prop :=
  ∀ i : Nat, after[i]? =
    if i < position then some (contents[i]?.getD 0)
    else if i < position + data.length then data[i - position]?
    else contents[i]?

/-- This is what the medium makes of the contents. -/
theorem written_splice (contents : List UInt8) (position : Nat) (data : List UInt8) :
    Written contents position data (splice contents position data) := by
  intro i
  simp only [splice, List.getElem?_append, List.length_take, List.length_replicate, List.getElem?_take, List.getElem?_drop,
    List.getElem?_replicate]
  by_cases hlow : i < position
  · rw [if_pos hlow, if_pos hlow]
    by_cases hold : i < contents.length
    · rw [if_pos (by omega), List.getElem?_eq_getElem hold, Option.getD_some]
    · rw [if_neg (by omega), if_pos (by omega), if_pos (by omega), List.getElem?_eq_none (by omega), Option.getD_none]
  · rw [if_neg (by omega : ¬i < min position contents.length),
      if_neg (by omega : ¬i - min position contents.length < position - contents.length), if_neg hlow]
    by_cases hin : i < position + data.length
    · rw [if_pos (by omega), if_pos hin]
      congr 1
      omega
    · rw [if_neg (by omega), if_neg hin]
      congr 1
      omega

/-- There is one outcome of a write. -/
theorem Written.eq_splice {after : List UInt8} (h : Written contents position data after) :
    after = splice contents position data :=
  List.ext_getElem? fun i => (h i).trans (written_splice contents position data i).symm

/-- What a read brings is as long as asked, or as long as there are bytes. -/
theorem length_readAt (d : RamDisk) (id : ObjectId) (position count : Nat) :
    (d.readAt id position count).length = min count ((d.object id).length - position) := by
  rw [readAt, List.length_take, List.length_drop]

/-- A read does not care for more bytes than there are. -/
theorem readAt_eq (d : RamDisk) (id : ObjectId) (position count : Nat) :
    d.readAt id position count = ((d.object id).drop position).take (min count ((d.object id).length - position)) := by
  rw [readAt, ← List.length_drop, ← List.take_eq_take_min]

/-- At the limit or beyond no byte finds space. -/
theorem writeAt_of_limit_le (h : d.limit ≤ position) (hd : data ≠ []) : d.writeAt id position data = (.error .noSpace, d) := by
  rw [writeAt, if_pos h, if_neg (by simpa using hd)]

/-- Before it as many are written as it allows. -/
theorem writeAt_of_lt_limit (h : position < d.limit) :
    d.writeAt id position data =
      (.ok (min data.length (d.limit - position)),
        d.putObject id (splice (d.object id) position (data.take (min data.length (d.limit - position))))) := by
  rw [writeAt, if_neg (Nat.not_le_of_lt h)]
  dsimp only
  rw [List.length_take, Nat.min_comm, Nat.min_comm data.length, ← List.take_eq_take_min]

end RamDisk

/-! ## Bytes through a descriptor -/

/-- A descriptor number is known by its slot. -/
theorem Fd.eq_of_slot {fd other : Fd} (h : fd.slot = other.slot) : fd = other := by
  cases fd
  cases other
  exact congrArg Fd.mk (UInt32.toNat_inj.mp h)

/-- The world but for what it has stored and what was reported: the console, and how many files were opened. -/
def World.SameDevices {κ : Type} (w w' : World RamDisk κ) : Prop :=
  w'.console = w.console ∧ w'.opened = w.opened ∧ w'.medium.capacity = w.medium.capacity

namespace Descriptors

variable {κ : Type} [Console κ] {t t' : Descriptors} {fd : Fd} {file : OpenFile} {cursor count : Nat} {w : World RamDisk κ}

/-- A table in which one cursor has moved on and all else is as it was. -/
structure Advanced (t : Descriptors) (fd : Fd) (count : Nat) (t' : Descriptors) : Prop where
  /-- The slots, one by one. -/
  slots : ∀ other, t'.get? other =
    if fd = other then (t.get? fd).map fun d => { d with cursor := d.cursor + count } else t.get? other
  /-- There are as many. -/
  length : t'.slots.length = t.slots.length

omit [Console κ] in
theorem advanced_advance {d : Descriptor} (h : t.get? fd = some d) (count : Nat) :
    t.Advanced fd count (t.advance fd d count) where
  slots other := by
    rw [advance, get?_put _ _ _ _ (slot_lt_of_get? h)]
    by_cases ho : fd = other
    · rw [if_pos ho, if_pos (congrArg Fd.slot ho), h, Option.map_some]
    · rw [if_neg ho, if_neg (fun hs => ho (Fd.eq_of_slot hs))]
  length := length_put ..

/-- A read brings the bytes of the object from the cursor on. -/
theorem fetch_file (h : t.get? fd = some ⟨.file file, cursor⟩) (w : World RamDisk κ) (count : Nat) :
    t.fetch w fd count = (.ok (⟨.file file, cursor⟩, w.medium.readAt file.object cursor count), w) := by
  have hr : w.readAt file.object cursor count =
      (.ok ⟨w.medium.readAt file.object cursor count, (w.medium.readAt file.object cursor count).length⟩, w) := rfl
  have hle : (w.medium.readAt file.object cursor count).length ≤ count := by
    rw [RamDisk.length_readAt]
    exact Nat.min_le_left ..
  have hfill : (Transfer.fill ⟨w.medium.readAt file.object cursor count, (w.medium.readAt file.object cursor count).length⟩
      count).take (w.medium.readAt file.object cursor count).length = w.medium.readAt file.object cursor count := by
    rw [Transfer.fill, List.take_of_length_le hle, List.take_left]
  rw [fetch, lookUp, h]
  dsimp only
  rw [hr]
  dsimp only
  rw [hfill]

/-- When they can be delivered the cursor moves on by as many. -/
theorem readWith_file {α : Type} {a : α} {deliver : List UInt8 → Except KernelError α}
    (h : t.get? fd = some ⟨.file file, cursor⟩) (hd : deliver (w.medium.readAt file.object cursor count) = .ok a) :
    ∃ t', t.readWith w fd count deliver =
        (.ok (w.medium.readAt file.object cursor count, a, t'),
          w.note (.descriptorRead fd.slot (w.medium.readAt file.object cursor count).length)) ∧
      t.Advanced fd (w.medium.readAt file.object cursor count).length t' := by
  refine ⟨_, ?_, advanced_advance h _⟩
  rw [readWith, fetch_file h]
  dsimp only
  rw [hd]

/-- A write at the limit or beyond is refused. -/
theorem write_file_of_limit_le {data : List UInt8} (h : t.get? fd = some ⟨.file file, cursor⟩) (hl : w.medium.limit ≤ cursor)
    (hd : data ≠ []) : t.write w fd data = (.error (.storage .noSpace), w) := by
  have hw : w.writeAt file.object cursor data = (.error .noSpace, w) := by
    have hm : Medium.writeAt w.medium file.object cursor data = (.error .noSpace, w.medium) := RamDisk.writeAt_of_limit_le hl hd
    rw [World.writeAt, hm]
  rw [write, lookUp, h]
  dsimp only
  rw [hw]
  rfl

/-- A write before it puts as many bytes at the cursor as it allows, and the cursor moves on by as many. -/
theorem write_file_of_lt_limit (h : t.get? fd = some ⟨.file file, cursor⟩) (hl : cursor < w.medium.limit) (data : List UInt8) :
    let count := min data.length (w.medium.limit - cursor)
    let medium :=
      w.medium.putObject file.object (RamDisk.splice (w.medium.object file.object) cursor (data.take count))
    ∃ t', t.write w fd data = (.ok (count, t'), { w with medium }.note (.descriptorWritten fd.slot count)) ∧
      t.Advanced fd count t' := by
  intro count medium
  refine ⟨_, ?_, advanced_advance h count⟩
  have hw : w.writeAt file.object cursor data = (.ok count, { w with medium }) := by
    have hm : Medium.writeAt w.medium file.object cursor data = (.ok count, medium) := RamDisk.writeAt_of_lt_limit hl
    rw [World.writeAt, hm]
  have hcount : min count data.length = count := Nat.min_eq_left (Nat.min_le_left ..)
  rw [write, lookUp, h]
  dsimp only
  rw [hw]
  dsimp only
  rw [hcount]

end Descriptors

/-! ## Bytes by system call -/

namespace Kernel

variable {κ : Type} [Console κ] {k : Kernel RamDisk κ} {pid : Pid} {process : Process} {fd : Fd} {file : OpenFile} {cursor : Nat}
  {contents : List UInt8} {thread : ThreadId} {number : UInt64} {args : Arguments} {trap : Option TrapFrame}

/-- Through a descriptor with this cursor a process reads these contents: a read into a range that can be written brings the bytes
from the cursor on, as many as asked or as there are, puts them at the start of the range and moves the cursor on. Nothing else
changes. -/
def Reads (k : Kernel RamDisk κ) (pid : Pid) (process : Process) (fd : Fd) (cursor : Nat) (contents : List UInt8) : Prop :=
  ∀ (thread : ThreadId) (number : UInt64) (args : Arguments) (trap : Option TrapFrame),
    SystemCall.ofWord? number = some .read → Fd.ofWord? args.a0 = some fd →
    process.memory.check ⟨args.a1⟩ args.a2.toNat .write = .ok () →
    let count := min args.a2.toNat (contents.length - cursor)
    ∃ memory descriptors world,
      k.dispatch thread pid number args trap =
        .finished (.ofDisposition trap (.resume (Int64.ofNat count)))
          ({ k with world }.putLive pid { process with memory, descriptors }) ∧
      process.memory.Puts ⟨args.a1⟩ ((contents.drop cursor).take count) memory ∧
      process.descriptors.Advanced fd count descriptors ∧
      world.medium = k.world.medium ∧ k.world.SameDevices world

/-- Through a descriptor with this cursor a process writes to a file with these contents. At the limit of the medium or beyond a
write from a range that can be read finds no space, and nothing changes. Otherwise it takes as many bytes as the limit allows, puts
them at the cursor and moves it on; no other file changes, and no other cursor, and every descriptor of the file, whoever has it,
reads the result. -/
def Writes (k : Kernel RamDisk κ) (pid : Pid) (process : Process) (fd : Fd) (name : String) (cursor : Nat)
    (contents : List UInt8) : Prop :=
  ∀ (thread : ThreadId) (number : UInt64) (args : Arguments) (trap : Option TrapFrame),
    SystemCall.ofWord? number = some .write → Fd.ofWord? args.a0 = some fd → args.a2 ≠ 0 →
    process.memory.check ⟨args.a1⟩ args.a2.toNat .read = .ok () →
    let limit := k.world.medium.limit
    let count := min args.a2.toNat (limit - cursor)
    (limit ≤ cursor → ∃ world,
      k.dispatch thread pid number args trap = .finished (.ofDisposition trap (.resume (-28))) { k with world } ∧
      world.medium = k.world.medium ∧ k.world.SameDevices world) ∧
    (cursor < limit → ∃ descriptors world after,
      let k' := { k with world }.putLive pid { process with descriptors }
      k.dispatch thread pid number args trap = .finished (.ofDisposition trap (.resume (Int64.ofNat count))) k' ∧
      process.descriptors.Advanced fd count descriptors ∧
      k.world.SameDevices world ∧
      RamDisk.Written contents cursor ((process.memory.bytesAt ⟨args.a1⟩ args.a2.toNat).take count) after ∧
      (∀ other, world.medium.contents? other = if name = other then some after else k.world.medium.contents? other) ∧
      ∀ reader owner slot stream place, k'.processes.live reader = .ok owner →
        owner.descriptors.get? slot = some ⟨.file stream, place⟩ → stream.name = name → k'.Reads reader owner slot place after)

omit [Console κ] in
/-- Whoever reads passes a good range and its descriptor. -/
theorem readArguments_of_check (hl : k.processes.live pid = .ok process) (hfd : Fd.ofWord? args.a0 = some fd)
    (hc : process.memory.check ⟨args.a1⟩ args.a2.toNat .write = .ok ()) : k.readArguments pid args = .ok (process, fd) := by
  rw [readArguments, hl]
  dsimp only
  rw [hc]
  dsimp only
  rw [Fd.argument, hfd]

omit [Console κ] in
/-- Whoever writes passes the bytes of a good range and its descriptor. -/
theorem writeArguments_of_check (hl : k.processes.live pid = .ok process) (hfd : Fd.ofWord? args.a0 = some fd)
    (hc : process.memory.check ⟨args.a1⟩ args.a2.toNat .read = .ok ()) :
    k.writeArguments pid args = .ok (process, process.memory.bytesAt ⟨args.a1⟩ args.a2.toNat, fd) := by
  rw [writeArguments, hl]
  dsimp only
  rw [AddressSpace.copyIn_of_check hc]
  dsimp only
  rw [Fd.argument, hfd]

/-- A system call that replies at once has its result, once it was reported. -/
theorem dispatch_of_call {call : SystemCall} (hh : k.halted = false) (hn : SystemCall.ofWord? number = some call) :
    k.dispatch thread pid number args trap = (k.note (.syscall pid number args.toList)).perform thread pid args trap call := by
  rw [dispatch, if_neg (Bool.eq_false_iff.mp hh)]
  dsimp only
  rw [hn]

/-- A process reads what is stored under the name of its file. -/
theorem Sound.reads (h : k.Sound) (hh : k.halted = false) (hl : k.processes.live pid = .ok process)
    (hd : process.descriptors.get? fd = some ⟨.file file, cursor⟩) (hcontents : k.world.medium.contents? file.name = some contents) :
    k.Reads pid process fd cursor contents := by
  intro thread number args trap hn hfd hc count
  have hname := h.names hl hd rfl
  obtain rfl : k.world.medium.object file.object = contents :=
    Option.some.inj ((Registry.contents?_of_names hname).symm.trans hcontents)
  have hbytes : k.world.medium.readAt file.object cursor args.a2.toNat =
      ((k.world.medium.object file.object).drop cursor).take count := RamDisk.readAt_eq ..
  have hcount : (((k.world.medium.object file.object).drop cursor).take count).length = count := by
    rw [← hbytes, RamDisk.length_readAt]
  have hgood : process.memory.check ⟨args.a1⟩ (((k.world.medium.object file.object).drop cursor).take count).length .write =
      .ok () := by
    rw [hcount]
    exact AddressSpace.check_of_le hc (Nat.min_le_left ..)
  obtain ⟨memory, hout, hputs⟩ := AddressSpace.exists_copyOut hgood
  let world := k.world.note (.syscall pid number args.toList)
  have hmedium : world.medium.readAt file.object cursor args.a2.toNat =
      ((k.world.medium.object file.object).drop cursor).take count := hbytes
  obtain ⟨descriptors, hread, hadv⟩ := Descriptors.readWith_file (w := world) hd (hmedium ▸ hout)
  rw [hmedium, hcount] at hread hadv
  have hargs : (k.note (.syscall pid number args.toList)).readArguments pid args = .ok (process, fd) :=
    readArguments_of_check hl hfd hc
  refine ⟨memory, descriptors, world.note (.descriptorRead fd.slot count), ?_, hputs, hadv, rfl, rfl, rfl, rfl⟩
  rw [dispatch_of_call hh hn, perform, reply, sysRead, hargs]
  dsimp only
  rw [show (k.note (.syscall pid number args.toList)).world = world from rfl, hread]
  dsimp only
  rw [hcount]
  rfl

/-- A process finds no space at the limit of the medium. -/
theorem dispatch_write_of_limit_le (hh : k.halted = false) (hl : k.processes.live pid = .ok process)
    (hd : process.descriptors.get? fd = some ⟨.file file, cursor⟩) (hn : SystemCall.ofWord? number = some .write)
    (hfd : Fd.ofWord? args.a0 = some fd) (hlen : args.a2 ≠ 0) (hc : process.memory.check ⟨args.a1⟩ args.a2.toNat .read = .ok ())
    (hlimit : k.world.medium.limit ≤ cursor) :
    k.dispatch thread pid number args trap =
      .finished (.ofDisposition trap (.resume (-28))) (k.note (.syscall pid number args.toList)) := by
  have hdata : process.memory.bytesAt ⟨args.a1⟩ args.a2.toNat ≠ [] := by
    intro hnil
    have hzero := AddressSpace.length_bytesAt hc
    rw [hnil, List.length_nil] at hzero
    exact hlen (UInt64.toNat_inj.mp hzero.symm)
  have hargs : (k.note (.syscall pid number args.toList)).writeArguments pid args =
      .ok (process, process.memory.bytesAt ⟨args.a1⟩ args.a2.toNat, fd) := writeArguments_of_check hl hfd hc
  have hwrite : process.descriptors.write (k.note (.syscall pid number args.toList)).world fd
      (process.memory.bytesAt ⟨args.a1⟩ args.a2.toNat) = (.error (.storage .noSpace), _) :=
    Descriptors.write_file_of_limit_le hd hlimit hdata
  rw [dispatch_of_call hh hn, perform, reply, sysWrite, hargs]
  dsimp only
  rw [hwrite]
  rfl

/-- A process writes to what is stored under the name of its file. -/
theorem Sound.writes (h : k.Sound) (hh : k.halted = false) (hl : k.processes.live pid = .ok process)
    (hd : process.descriptors.get? fd = some ⟨.file file, cursor⟩) (hcontents : k.world.medium.contents? file.name = some contents) :
    k.Writes pid process fd file.name cursor contents := by
  intro thread number args trap hn hfd hlen hc limit count
  have hname := h.names hl hd rfl
  obtain rfl : k.world.medium.object file.object = contents :=
    Option.some.inj ((Registry.contents?_of_names hname).symm.trans hcontents)
  refine ⟨fun hlimit => ?_, fun hlimit => ?_⟩
  · exact ⟨_, dispatch_write_of_limit_le hh hl hd hn hfd hlen hc hlimit, rfl, rfl, rfl, rfl⟩
  let data := process.memory.bytesAt ⟨args.a1⟩ args.a2.toNat
  have hdata : data.length = args.a2.toNat := AddressSpace.length_bytesAt hc
  let heard := k.note (.syscall pid number args.toList)
  have hargs : heard.writeArguments pid args = .ok (process, data, fd) := writeArguments_of_check hl hfd hc
  obtain ⟨descriptors, hwrite, hadv⟩ := Descriptors.write_file_of_lt_limit (w := heard.world) hd hlimit data
  have hcount : min data.length (heard.world.medium.limit - cursor) = count := by
    rw [hdata]
    rfl
  rw [hcount] at hwrite hadv
  let after := RamDisk.splice (k.world.medium.object file.object) cursor (data.take count)
  let world := World.note { heard.world with medium := k.world.medium.putObject file.object after } (.descriptorWritten fd.slot count)
  have hstored (other : String) : world.medium.contents? other =
      if file.name = other then some after else k.world.medium.contents? other :=
    h.settled.separate.contents?_putObject h.settled.whole hname after other
  have hsound : ({ heard with world }.putLive pid { process with descriptors }).Sound := by
    have hheard : heard.Sound := h.of_processes rfl rfl h.settled
    have hmove : Move (fun _ => True) heard _ := .written trivial hl hwrite
    exact sound_of_move hmove hheard
  refine ⟨descriptors, world, after, ?_, hadv, ⟨rfl, rfl, rfl⟩, RamDisk.written_splice _ _ _, hstored, ?_⟩
  · rw [dispatch_of_call hh hn, perform, reply, sysWrite, hargs]
    dsimp only
    rw [hwrite]
    rfl
  · intro reader owner slot stream place hreader hslot hsame
    refine hsound.reads hh hreader hslot ?_
    exact (hstored stream.name).trans (if_pos hsame.symm)

end Kernel

namespace Machine

variable {κ : Type} [Console κ] {allowed : Call → Prop} {settings : Settings} {medium : RamDisk} {console : κ}
  {m : Machine RamDisk κ}

/-- Whatever was stored at the beginning and whatever calls were made since, every descriptor of a file that a running process has
is one to the bytes that are stored under the name of the file: it reads and writes them. Without a capacity every write takes all
its bytes, as long as their positions can be told by words. -/
theorem files_are_bytes (hw : medium.Whole) (hs : medium.Separate) (h : Leads allowed (start settings medium console) m)
    {pid : Pid} {process : Process} {fd : Fd} {file : OpenFile} {cursor : Nat} (hl : m.kernel.processes.live pid = .ok process)
    (hd : process.descriptors.get? fd = some ⟨.file file, cursor⟩) :
    ∃ contents, m.kernel.world.medium.contents? file.name = some contents ∧
      m.kernel.Reads pid process fd cursor contents ∧
      m.kernel.Writes pid process fd file.name cursor contents ∧
      (∀ capacity, m.kernel.world.medium.capacity = some capacity → m.kernel.world.medium.limit = capacity) ∧
      (m.kernel.world.medium.capacity = none → ∀ count, 0 < count → cursor + count < UInt64.size →
        cursor < m.kernel.world.medium.limit ∧ min count (m.kernel.world.medium.limit - cursor) = count) := by
  have hsound : m.kernel.Sound := sound_of_leads h hw hs
  have hh : m.kernel.halted = false := halted_eq_false_of_get? h hl hd rfl
  have hcontents := Registry.contents?_of_names (hsound.names hl hd rfl)
  refine ⟨_, hcontents, hsound.reads hh hl hd hcontents, hsound.writes hh hl hd hcontents, ?_, ?_⟩
  · intro capacity hcap
    rw [RamDisk.limit, hcap, Option.getD_some]
  · intro hcap count hpos hfits
    rw [RamDisk.limit, hcap, Option.getD_none]
    omega

/-- A program writes three bytes to a new file, and its child makes the file anew. -/
def sharing : List Turn :=
  started (.boot "init" []) ++
    [.memory ⟨1⟩ (·.load ⟨1⟩ [102, 0, 97, 98, 99]), .call ⟨0⟩ (.systemCall ⟨1⟩ 4 ⟨1, 0, 0, 0⟩),
      .call ⟨0⟩ (.systemCall ⟨1⟩ 7 ⟨2, 3, 3, 0⟩)] ++
    started (.spawn (some ⟨1⟩) "child" []) ++
    [.memory ⟨2⟩ (·.load ⟨1⟩ [102, 0]), .call ⟨0⟩ (.systemCall ⟨2⟩ 4 ⟨1, 0, 0, 0⟩)]

/-- Where a file holds five bytes at most, two of the next four that the program writes find space, behind three zeros, and this
is what the child reads through its own descriptor. -/
theorem sharing_is_bytes :
    let m := (start { slots := 4 } (RamDisk.empty (some 5)) Silent.mk).play sharing
    ∃ k' child, m.kernel.dispatch ⟨0⟩ ⟨1⟩ 7 ⟨2, 3, 4, 0⟩ none = .finished (.returned (.resume 2)) k' ∧
      k'.world.medium.contents? "f" = some [0, 0, 0, 97, 98] ∧
      k'.processes.live ⟨2⟩ = .ok child ∧ k'.Reads ⟨2⟩ child ⟨2⟩ 0 [0, 0, 0, 97, 98] := by
  intro m
  obtain ⟨program, child, hl, hd, hc, hdata, hl', hd'⟩ :
      ∃ program child, m.kernel.processes.live ⟨1⟩ = .ok program ∧
        program.descriptors.get? ⟨2⟩ = some ⟨.file ⟨0, "f", ⟨0⟩⟩, 3⟩ ∧ program.memory.check ⟨3⟩ 4 .read = .ok () ∧
        program.memory.bytesAt ⟨3⟩ 4 = [97, 98, 99, 0] ∧ m.kernel.processes.live ⟨2⟩ = .ok child ∧
        child.descriptors.get? ⟨2⟩ = some ⟨.file ⟨0, "f", ⟨0⟩⟩, 0⟩ :=
    ⟨_, _, rfl, rfl, rfl, rfl, rfl, rfl⟩
  have hrun : Leads (fun _ => True) (start { slots := 4 } (RamDisk.empty (some 5)) Silent.mk) m :=
    leads_iff_exists_play.mpr ⟨sharing, by decide, rfl⟩
  obtain ⟨contents, hstored, -, hwrites, -⟩ :=
    files_are_bytes (RamDisk.whole_empty _) (RamDisk.separate_empty _) hrun hl hd
  obtain rfl : [] = contents := Option.some.inj hstored
  obtain ⟨descriptors, world, after, hcall, -, -, hwritten, hafter, hothers⟩ :=
    (hwrites ⟨0⟩ 7 ⟨2, 3, 4, 0⟩ none rfl rfl (by decide) hc).2 (by decide)
  have hbytes : after = [0, 0, 0, 97, 98] := by
    refine hwritten.eq_splice.trans ?_
    rw [show (Address.mk (Arguments.mk 2 3 4 0).a1) = ⟨3⟩ from rfl, show (Arguments.mk 2 3 4 0).a2.toNat = 4 from rfl, hdata]
    rfl
  have hchild : ({ m.kernel with world }.putLive ⟨1⟩ { program with descriptors }).processes.live ⟨2⟩ = .ok child := by
    rw [← hl']
    unfold ProcessTable.live Kernel.putLive
    rw [ProcessTable.record?_putLive, if_neg (by decide)]
  refine ⟨_, child, hcall, ?_, hchild, ?_⟩
  · rw [← hbytes]
    exact hafter "f"
  · rw [← hbytes]
    exact hothers ⟨2⟩ child ⟨2⟩ _ 0 hchild hd' rfl

end Machine

end Nucleus
