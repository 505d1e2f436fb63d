import Nucleus.Proofs.Memory
import Nucleus.Proofs.SharedFiles
import Nucleus.Proofs.Scripts

/-!
# Writes of no bytes

A write of no bytes is to have no effect. Through a descriptor of a file it answers zero and moves no cursor, but where the cursor
lies behind the end of the file and before the limit of the medium, the file is filled up with zeros to the cursor. A cursor gets
there when somebody else empties the file.
-/

namespace Nucleus

namespace RamDisk

/-- Whether a position lies behind the end of an object and before the limit. -/
def Gap (d : RamDisk) (id : ObjectId) (position : Nat) : Prop := (d.object id).length < position ∧ position < d.limit

instance (d : RamDisk) (id : ObjectId) (position : Nat) : Decidable (d.Gap id position) :=
  inferInstanceAs (Decidable (_ ∧ _))

/-- What an object holds, and zeros up to a position. -/
def padded (d : RamDisk) (id : ObjectId) (position : Nat) : List UInt8 :=
  d.object id ++ List.replicate (position - (d.object id).length) 0

/-- The medium with a gap before a position filled, if there is one. -/
def fill (d : RamDisk) (id : ObjectId) (position : Nat) : RamDisk :=
  if d.Gap id position then d.putObject id (d.padded id position) else d

variable {d : RamDisk} {id : ObjectId} {name : String}

/-- No bytes, put within the contents or at their end, change nothing. -/
theorem splice_nil_of_le {contents : List UInt8} {position : Nat} (h : position ≤ contents.length) :
    splice contents position [] = contents := by
  simp [splice, Nat.sub_eq_zero_of_le h]

/-- No bytes, put at or behind the end, come after zeros. -/
theorem splice_nil_of_ge {contents : List UInt8} {position : Nat} (h : contents.length ≤ position) :
    splice contents position [] = contents ++ List.replicate (position - contents.length) 0 := by
  simp [splice, List.take_of_length_le h, List.drop_of_length_le h]

/-- An object that gets what it holds is as it was. -/
theorem putObject_object (d : RamDisk) (id : ObjectId) : d.putObject id (d.object id) = d := by
  have hsame : d.objects.set id.number (d.object id) = d.objects := by
    by_cases h : id.number < d.objects.length
    · have hobj : d.object id = d.objects[id.number] := by simp [object, h]
      rw [hobj, List.set_getElem_self]
    · exact List.set_eq_of_length_le (Nat.le_of_not_lt h)
  unfold putObject
  rw [hsame]

/-- A write of no bytes answers zero, and all that it does is to fill a gap. -/
theorem writeAt_nil (d : RamDisk) (id : ObjectId) (position : Nat) : d.writeAt id position [] = (.ok 0, d.fill id position) := by
  unfold writeAt fill
  by_cases hlimit : d.limit ≤ position
  · have hgap : ¬d.Gap id position := fun h => Nat.not_lt_of_le hlimit h.2
    rw [if_pos hlimit, if_neg hgap]
    rfl
  · rw [if_neg hlimit, List.take_nil]
    dsimp only
    by_cases hend : (d.object id).length < position
    · have hgap : d.Gap id position := ⟨hend, Nat.lt_of_not_le hlimit⟩
      rw [if_pos hgap, splice_nil_of_ge (Nat.le_of_lt hend)]
      rfl
    · have hgap : ¬d.Gap id position := fun h => hend h.1
      rw [if_neg hgap, splice_nil_of_le (Nat.le_of_not_lt hend), putObject_object]
      rfl

/-- Filling a gap changes what is stored under the name of the object and under no other. -/
theorem contents?_fill (hw : d.Whole) (hs : d.Separate) (h : d.names[name]? = some id) (position : Nat) (other : String) :
    (d.fill id position).contents? other =
      if name = other ∧ d.Gap id position then some (d.padded id position) else d.contents? other := by
  unfold fill
  by_cases hg : d.Gap id position
  · rw [if_pos hg, hs.contents?_putObject hw h]
    simp [hg]
  · rw [if_neg hg, if_neg (fun hn => hg hn.2)]

/-- It changes what is stored under the name if there is a gap. -/
theorem contents?_fill_eq_iff (hw : d.Whole) (hs : d.Separate) (h : d.names[name]? = some id) (position : Nat) :
    (∀ other, (d.fill id position).contents? other = d.contents? other) ↔ ¬d.Gap id position := by
  constructor
  · intro hsame hg
    have hname := hsame name
    rw [contents?_fill hw hs h, if_pos ⟨rfl, hg⟩, contents?, h, Option.map_some, Option.some.injEq] at hname
    have hlen := congrArg List.length hname
    rw [padded, List.length_append, List.length_replicate] at hlen
    have hlt : (d.object id).length < position := hg.1
    omega
  · intro hg other
    rw [fill, if_neg hg]

end RamDisk

namespace Descriptors

variable {κ : Type} {t : Descriptors} {fd : Fd} {file : OpenFile} {cursor : Nat}

/-- A cursor that is moved on by nothing stays. -/
theorem advance_zero {d : Descriptor} (h : t.get? fd = some d) : t.advance fd d 0 = t := by
  have hsame : t.slots.set fd.slot (some d) = t.slots := set_of_getElem? (slots_of_get? h)
  unfold advance put
  rw [Nat.add_zero, hsame]

/-- A write of no bytes through a descriptor of a file answers zero, leaves the table as it is and fills the gap before the cursor,
if there is one. -/
theorem write_nil [Console κ] (h : t.get? fd = some ⟨.file file, cursor⟩) (w : World RamDisk κ) :
    t.write w fd [] =
      (.ok (0, t), { w with medium := w.medium.fill file.object cursor }.note (.descriptorWritten fd.slot 0)) := by
  have hw : w.writeAt file.object cursor [] = (.ok 0, { w with medium := w.medium.fill file.object cursor }) := by
    have hm : Medium.writeAt w.medium file.object cursor [] = (.ok 0, w.medium.fill file.object cursor) :=
      RamDisk.writeAt_nil w.medium file.object cursor
    rw [World.writeAt, hm]
  unfold write lookUp
  simp only [h, hw, List.length_nil, Nat.min_self, advance_zero h]

end Descriptors

namespace Kernel

variable {κ : Type} {k : Kernel RamDisk κ} {pid : Pid} {process : Process} {args : Arguments} {fd : Fd} {file : OpenFile}
  {cursor : Nat}

/-- A process that asks for a write of no bytes through a descriptor, from whatever address, is not refused. -/
theorem writeArguments_nil (hl : k.processes.live pid = .ok process) (hfd : Fd.ofWord? args.a0 = some fd) (hlen : args.a2 = 0) :
    k.writeArguments pid args = .ok (process, [], fd) := by
  have hcopy : process.memory.copyIn ⟨args.a1⟩ args.a2.toNat = .ok [] := by
    rw [hlen]
    exact process.memory.copyIn_zero ⟨args.a1⟩
  rw [writeArguments, hl]
  dsimp only
  rw [hcopy]
  dsimp only
  rw [Fd.argument, hfd]

variable [Console κ]

/-- Its answer is zero, and it leaves the kernel as it is but for the gap before the cursor, which is filled if there is one. -/
theorem sysWrite_nil (hl : k.processes.live pid = .ok process) (hfd : Fd.ofWord? args.a0 = some fd) (hlen : args.a2 = 0)
    (hd : process.descriptors.get? fd = some ⟨.file file, cursor⟩) :
    k.sysWrite pid args =
      (.ok 0,
        { k with
          world := { k.world with medium := k.world.medium.fill file.object cursor }.note (.descriptorWritten fd.slot 0) }) := by
  have hself (world : World RamDisk κ) : Kernel.putLive { k with world } pid process = { k with world } := by
    rw [putLive, ProcessTable.putLive_self hl]
  rw [sysWrite, writeArguments_nil hl hfd hlen]
  dsimp only
  rw [Descriptors.write_nil hd]
  dsimp only
  rw [hself]
  rfl

/-- The system call does the same, in a machine that has not halted. -/
theorem dispatch_write_nil {thread : ThreadId} {number : UInt64} {trap : Option TrapFrame} (hh : k.halted = false)
    (hn : SystemCall.ofWord? number = some .write) (hl : k.processes.live pid = .ok process)
    (hfd : Fd.ofWord? args.a0 = some fd) (hlen : args.a2 = 0) (hd : process.descriptors.get? fd = some ⟨.file file, cursor⟩) :
    ∃ world, k.dispatch thread pid number args trap = answer { k with world } trap (.ok 0) ∧
      world.medium = k.world.medium.fill file.object cursor ∧ world.console = k.world.console ∧ world.opened = k.world.opened := by
  have hcall : (k.note (.syscall pid number args.toList)).sysWrite pid args = _ := sysWrite_nil hl hfd hlen hd
  unfold dispatch
  rw [if_neg (Bool.eq_false_iff.mp hh)]
  dsimp only
  rw [hn]
  dsimp only
  rw [perform, reply, hcall]
  exact ⟨_, rfl, rfl, rfl, rfl⟩

end Kernel

namespace SharedFiles

variable {κ : Type} [Console κ] {world : World RamDisk κ}

/-- A call for a write of no bytes through a descriptor of a file leaves all tables and the registry as they are. -/
theorem step_write_nil {s : SharedFiles κ} {place : Nat} {t : Descriptors} {fd : Fd} {file : OpenFile} {cursor : Nat}
    (ht : s.tables[place]? = some t) (hd : t.get? fd = some ⟨.file file, cursor⟩) :
    s.step (.write place fd []) =
      { s with
        world := { s.world with medium := s.world.medium.fill file.object cursor }.note (.descriptorWritten fd.slot 0) } := by
  have hsame : s.tables.set place t = s.tables := set_of_getElem? ht
  rw [step, onTable, ht]
  dsimp only
  rw [Descriptors.write_nil hd]
  change SharedFiles.mk (s.tables.set place t) _ _ = _
  rw [hsame]

/-- Whatever was stored at the beginning and whatever calls were made since, a write of no bytes through a descriptor of a file
answers zero, and leaves every table with its cursors, the registry with its counts and the console as they are. Where the cursor
lies behind the end of the file and before the limit, the file is filled up with zeros to the cursor; nothing else is done to any
file. So a write of no bytes has no effect exactly if there is no such gap. The system call of a process that has the table does
the same, whatever address it names. -/
theorem empty_write_iff (hw : world.medium.Whole) (hs : world.medium.Separate) (calls : List FileCall) {place : Nat}
    {t : Descriptors} {fd : Fd} {file : OpenFile} {cursor : Nat} (ht : ((start world).run calls).tables[place]? = some t)
    (hd : t.get? fd = some ⟨.file file, cursor⟩) :
    let s := (start world).run calls
    let s' := s.step (.write place fd [])
    let before := s.world.medium
    let after := s'.world.medium
    (t.write s.world fd [] = (.ok (0, t), s'.world) ∧ s'.tables = s.tables ∧ s'.registry = s.registry ∧
      s'.world.console = s.world.console) ∧
    (∀ name, after.contents? name =
      if file.name = name ∧ before.Gap file.object cursor then some (before.padded file.object cursor)
      else before.contents? name) ∧
    ((∀ name, after.contents? name = before.contents? name) ↔ ¬before.Gap file.object cursor) ∧
    ∀ (k : Kernel RamDisk κ) (thread : ThreadId) (pid : Pid) (process : Process) (number : UInt64) (args : Arguments)
      (trap : Option TrapFrame), k.halted = false → k.world.medium = before → k.processes.live pid = .ok process →
      process.descriptors = t → SystemCall.ofWord? number = some .write → Fd.ofWord? args.a0 = some fd → args.a2 = 0 →
      ∃ world', k.dispatch thread pid number args trap = Kernel.answer { k with world := world' } trap (.ok 0) ∧
        world'.medium = after ∧ world'.console = k.world.console ∧ world'.opened = k.world.opened := by
  intro s s' before after
  have hsound : s.Sound := (sound_start hw hs).run calls
  have hname : before.names[file.name]? = some file.object := hsound.names ht hd rfl
  have hstep : s' =
      { s with world := { s.world with medium := before.fill file.object cursor }.note (.descriptorWritten fd.slot 0) } :=
    step_write_nil ht hd
  have hafter : after = before.fill file.object cursor := congrArg (fun s => s.world.medium) hstep
  rw [hafter]
  refine ⟨?_, ?_, ?_, ?_⟩
  · rw [Descriptors.write_nil hd, hstep]
    exact ⟨rfl, rfl, rfl, rfl⟩
  · exact RamDisk.contents?_fill hsound.settled.whole hsound.settled.separate hname cursor
  · exact RamDisk.contents?_fill_eq_iff hsound.settled.whole hsound.settled.separate hname cursor
  · rintro k thread pid process number args trap hh hmedium hl rfl hn hfd hlen
    rw [← hmedium]
    exact Kernel.dispatch_write_nil hh hn hl hfd hlen hd

/-- A file is made and three bytes are written to it; then it is made anew, so that the first cursor lies behind its end. -/
def overtaken : List FileCall :=
  [.table 4, .openFile 0 "f" .fresh, .write 0 ⟨2⟩ [97, 98, 99], .openFile 0 "f" .fresh]

/-- A program that does the same. -/
def overtaking : List Turn :=
  started (.boot "init" []) ++
    [.memory ⟨1⟩ (·.load ⟨1⟩ [102, 0, 97, 98, 99]), .call ⟨0⟩ (.systemCall ⟨1⟩ 4 ⟨1, 0, 0, 0⟩),
      .call ⟨0⟩ (.systemCall ⟨1⟩ 7 ⟨2, 3, 3, 0⟩), .call ⟨0⟩ (.systemCall ⟨1⟩ 4 ⟨1, 0, 0, 0⟩)]

/-- Then a write of no bytes at that cursor puts three zeros into the empty file, also as a system call and from a null address. -/
theorem overtaken_filled :
    let s := (start { medium := RamDisk.empty none, console := Silent.mk }).run overtaken
    let k := ((Machine.start { slots := 4 } (RamDisk.empty none) Silent.mk).play overtaking).kernel
    s.world.medium.contents? "f" = some [] ∧
      (s.step (.write 0 ⟨2⟩ [])).world.medium.contents? "f" = some [0, 0, 0] ∧
      (¬∀ name, (s.step (.write 0 ⟨2⟩ [])).world.medium.contents? name = s.world.medium.contents? name) ∧
      ∃ world', k.dispatch ⟨0⟩ ⟨1⟩ 7 ⟨2, 0, 0, 0⟩ none = Kernel.answer { k with world := world' } none (.ok 0) ∧
        world'.medium.contents? "f" = some [0, 0, 0] := by
  intro s k
  obtain ⟨t, process, ht, hd, hl, hp⟩ :
      ∃ t process, s.tables[0]? = some t ∧ t.get? ⟨2⟩ = some ⟨.file ⟨0, "f", ⟨0⟩⟩, 3⟩ ∧
        k.processes.live ⟨1⟩ = .ok process ∧ process.descriptors = t := ⟨_, _, rfl, rfl, rfl, rfl⟩
  obtain ⟨-, hcontents, hiff, hcall⟩ := empty_write_iff (RamDisk.whole_empty none) (RamDisk.separate_empty none) overtaken ht hd
  have hgap : s.world.medium.Gap ⟨0⟩ 3 := by decide
  have hzeros : (s.step (.write 0 ⟨2⟩ [])).world.medium.contents? "f" = some [0, 0, 0] := by
    rw [hcontents "f", if_pos ⟨rfl, hgap⟩]
    rfl
  obtain ⟨world', hk, hm, -⟩ := hcall k ⟨0⟩ ⟨1⟩ process 7 ⟨2, 0, 0, 0⟩ none rfl rfl hl hp rfl rfl rfl
  exact ⟨by decide, hzeros, fun hsame => hiff.mp hsame hgap, world', hk, by rw [hm, hzeros]⟩

end SharedFiles

end Nucleus
