import Nucleus.Proofs.Moves

/-!
# What operations add to the outside

What is done to the outside is only ever added to. `World.Adds kind w w'` says that `w'` has more effects than `w`, all of a kind.
Opening, reading, writing and unlinking add plain effects; a release adds no start; the only move that adds a start, and just one,
is the enrolment of a process (`starts_of_move`).
-/

namespace Nucleus

variable {μ κ : Type}

namespace World

/-- One world is another with more done to the outside, all of a kind. -/
def Adds (kind : Effect → Bool) (w w' : World μ κ) : Prop :=
  ∃ more : List Effect, w'.effects = w.effects ++ more ∧ ∀ effect ∈ more, kind effect = true

variable {kind kind' : Effect → Bool} {w w' w'' : World μ κ}

theorem Adds.of_eq (h : w'.effects = w.effects) : w.Adds kind w' :=
  ⟨[], by rw [h, List.append_nil], fun _ he => absurd he List.not_mem_nil⟩

theorem Adds.refl (w : World μ κ) : w.Adds kind w := .of_eq rfl

theorem Adds.trans (h : w.Adds kind w') (h' : w'.Adds kind w'') : w.Adds kind w'' := by
  obtain ⟨a, ha, hk⟩ := h
  obtain ⟨b, hb, hk'⟩ := h'
  refine ⟨a ++ b, by rw [hb, ha, List.append_assoc], ?_⟩
  intro effect he
  rcases List.mem_append.mp he with he | he
  · exact hk effect he
  · exact hk' effect he

/-- Effects of a narrower kind are of the wider one. -/
theorem Adds.mono (h : w.Adds kind w') (hk : ∀ effect, kind effect = true → kind' effect = true) : w.Adds kind' w' := by
  obtain ⟨more, he, hm⟩ := h
  exact ⟨more, he, fun effect hi => hk effect (hm effect hi)⟩

/-- The same of the world that a result comes with. -/
theorem Adds.snd {α : Type} {a : α} {p : α × World μ κ} (h : w.Adds kind p.2) (hp : p = (a, w')) : w.Adds kind w' := by
  rw [hp] at h
  exact h

/-- The same of the world that a result and a registry come with. -/
theorem Adds.trd {α β : Type} {a : α} {b : β} {p : α × β × World μ κ} (h : w.Adds kind p.2.2) (hp : p = (a, b, w')) :
    w.Adds kind w' := by
  rw [hp] at h
  exact h

theorem adds_emit (w : World μ κ) (effect : Effect) (h : kind effect = true) : w.Adds kind (w.emit effect) :=
  ⟨[effect], rfl, fun other ho => by rw [List.mem_singleton.mp ho]; exact h⟩

/-- One more report of a kind. -/
theorem Adds.note (h : w.Adds kind w') (event : Notice) (he : kind (.notice event) = true) : w.Adds kind (w'.note event) :=
  h.trans (adds_emit w' (.notice event) he)

/-- What held of no effect before and of none that was added holds of none. -/
theorem Adds.forall (h : w.Adds kind w') {p : Effect → Prop} (hw : ∀ effect ∈ w.effects, p effect)
    (hk : ∀ effect, kind effect = true → p effect) : ∀ effect ∈ w'.effects, p effect := by
  obtain ⟨more, he, hm⟩ := h
  intro effect hi
  rw [he] at hi
  rcases List.mem_append.mp hi with hi | hi
  · exact hw effect hi
  · exact hk effect (hm effect hi)

/-- Without a start among them, added effects leave the number of starts as it is. -/
theorem Adds.starts (h : w.Adds (!·.isStart) w') : w'.starts = w.starts := by
  obtain ⟨more, he, hm⟩ := h
  have h0 : more.countP Effect.isStart = 0 := by
    rw [List.countP_eq_zero]
    intro effect hi
    simpa using hm effect hi
  rw [World.starts, he, List.countP_append, h0, Nat.add_zero, World.starts]

/-- An ordinary effect is no start. -/
theorem not_isStart_of_isOrdinary (effect : Effect) (h : effect.isOrdinary = true) : (!effect.isStart) = true := by
  simp only [Effect.isOrdinary, Bool.and_eq_true] at h
  exact h.1

/-- A quiet effect is no start. -/
theorem not_isStart_of_isQuiet (effect : Effect) (h : effect.isQuiet = true) : (!effect.isStart) = true := by
  cases effect with
  | started pid info => cases h
  | _ => rfl

/-- A plain effect is quiet. -/
theorem isQuiet_of_isPlain (effect : Effect) (h : effect.isPlain = true) : effect.isQuiet = true := by
  simp only [Effect.isPlain, Bool.and_eq_true] at h
  exact h.1

/-- A plain effect is ordinary. -/
theorem isOrdinary_of_isPlain (effect : Effect) (h : effect.isPlain = true) : effect.isOrdinary = true := by
  have hs := not_isStart_of_isQuiet effect (isQuiet_of_isPlain effect h)
  simp only [Effect.isPlain, Bool.and_eq_true] at h
  simp only [Effect.isOrdinary, Bool.and_eq_true]
  exact ⟨hs, h.2⟩

/-- Plain effects are quiet. -/
theorem Adds.quiet (h : w.Adds Effect.isPlain w') : w.Adds Effect.isQuiet w' := h.mono isQuiet_of_isPlain

/-- Plain effects are ordinary. -/
theorem Adds.ordinary (h : w.Adds Effect.isPlain w') : w.Adds Effect.isOrdinary w' := h.mono isOrdinary_of_isPlain

/-- Quiet effects leave the number of starts as it is. -/
theorem Adds.starts_of_quiet (h : w.Adds Effect.isQuiet w') : w'.starts = w.starts := (h.mono not_isStart_of_isQuiet).starts

/-- Ordinary effects leave the number of starts as it is. -/
theorem Adds.starts_of_ordinary (h : w.Adds Effect.isOrdinary w') : w'.starts = w.starts :=
  (h.mono not_isStart_of_isOrdinary).starts

/-- Several reports of a kind. -/
theorem adds_noteAll (w : World μ κ) (events : List Notice) (h : ∀ event ∈ events, kind (.notice event) = true) :
    w.Adds kind (w.noteAll events) := by
  refine ⟨events.map .notice, by rw [noteAll_eq], ?_⟩
  intro effect he
  obtain ⟨event, hm, rfl⟩ := List.mem_map.mp he
  exact h event hm

/-- Waking threads is ordinary. -/
theorem adds_unblockAll (w : World μ κ) (threads : List ThreadId) : w.Adds Effect.isOrdinary (w.unblockAll threads) := by
  refine ⟨threads.map .unblocked, by rw [unblockAll_eq], ?_⟩
  intro effect he
  obtain ⟨thread, -, rfl⟩ := List.mem_map.mp he
  rfl

section Medium

variable [Medium μ]

theorem adds_create (w : World μ κ) (name : String) : w.Adds Effect.isPlain (w.create name).2 := by
  unfold create
  split
  · rename_i id medium h
    exact (Adds.of_eq rfl).note (.mediumCreated name) rfl
  · exact .of_eq rfl

theorem adds_find (w : World μ κ) (name : String) : w.Adds Effect.isPlain (w.find name).2 := .of_eq rfl

theorem adds_remove (w : World μ κ) (name : String) : w.Adds Effect.isPlain (w.remove name).2 := by
  unfold remove
  split
  · rename_i medium h
    exact (Adds.of_eq rfl).note (.mediumRemoved name) rfl
  · exact .of_eq rfl

theorem adds_readAt (w : World μ κ) (id : ObjectId) (position count : Nat) :
    w.Adds Effect.isPlain (w.readAt id position count).2 := .of_eq rfl

theorem adds_writeAt (w : World μ κ) (id : ObjectId) (position : Nat) (data : List UInt8) :
    w.Adds Effect.isPlain (w.writeAt id position data).2 := .of_eq rfl

theorem adds_truncate (w : World μ κ) (id : ObjectId) : w.Adds Effect.isPlain (w.truncate id).2 := .of_eq rfl

end Medium

section Console

variable [Console κ]

theorem adds_takeTyped (w : World μ κ) (count : Nat) : w.Adds Effect.isPlain (w.takeTyped count).2 := .of_eq rfl

theorem adds_display (w : World μ κ) (data : List UInt8) : w.Adds Effect.isPlain (w.display data).2 := by
  unfold display
  split
  · exact (Adds.of_eq rfl).trans (adds_emit _ _ rfl)
  · exact .of_eq rfl

end Console

end World

/-! ## Files -/

section Files

variable [Medium μ]

namespace Registry

open World

theorem adds_lookUp (w : World μ κ) (name : String) (mode : OpenMode) : w.Adds Effect.isPlain (lookUp w name mode).2 := by
  unfold lookUp
  split
  · exact adds_find w name
  · split
    · exact adds_create w name
    · have hf := adds_find w name
      split
      · rename_i w' h
        exact (hf.snd h).trans (adds_create w' name)
      · exact hf

theorem adds_acquireNew (r : Registry) (w : World μ κ) (name : String) (mode : OpenMode) :
    w.Adds Effect.isPlain (r.acquireNew w name mode).2.2 := by
  have hl := adds_lookUp w name mode
  unfold acquireNew
  split
  · rename_i e w' h
    exact hl.snd h
  · rename_i object w' h
    exact ((hl.snd h).trans (.of_eq rfl)).note (.registered name) rfl

/-- Opening a name adds plain effects, whether it succeeds or not. -/
theorem adds_acquire (r : Registry) (w : World μ κ) (name : String) (mode : OpenMode) :
    w.Adds Effect.isPlain (r.acquire w name mode).2.2 := by
  have hn : w.Adds Effect.isPlain w := .refl w
  unfold acquire
  split
  · exact adds_acquireNew r w name mode
  · rename_i entry hf
    split
    · exact hn
    · split
      · have ht := adds_truncate w entry.file.object
        split
        · rename_i e w' h
          exact ht.snd h
        · rename_i w' h
          exact (ht.snd h).note (.references name (entry.refs + 1)) rfl
      · exact hn.note (.references name (entry.refs + 1)) rfl

theorem adds_deleteClosed (w : World μ κ) (name : String) : w.Adds Effect.isPlain (deleteClosed w name) := by
  have hr := adds_remove w name
  unfold deleteClosed
  split
  · rename_i w' h
    exact (hr.snd h).note (.deletedAtLastClose name) rfl
  · rename_i e w' h
    exact (hr.snd h).note (.deferredDeleteFailed name e) rfl

/-- The release of a handle that is registered adds plain effects. -/
theorem adds_release_of_find? {r : Registry} {file : OpenFile} {entry : Entry} (w : World μ κ)
    (h : r.find? file.name = some entry) (hf : entry.file = file) : w.Adds Effect.isPlain (r.release w file).2 := by
  have hn : w.Adds Effect.isPlain (w.note (.references file.name (entry.refs - 1))) := (Adds.refl w).note _ rfl
  unfold release
  rw [h]
  dsimp only
  rw [if_neg (not_not_intro hf)]
  split
  · exact hn
  · split
    · exact hn.trans (adds_deleteClosed _ _)
    · exact hn

/-- A release is quiet, whatever the handle. -/
theorem adds_release (r : Registry) (w : World μ κ) (file : OpenFile) : w.Adds Effect.isQuiet (r.release w file).2 := by
  have hn : w.Adds Effect.isQuiet w := .refl w
  cases h : r.find? file.name with
  | none =>
    unfold release
    rw [h]
    exact hn.note _ rfl
  | some entry =>
    by_cases hf : entry.file = file
    · exact (adds_release_of_find? w h hf).quiet
    · unfold release
      rw [h]
      dsimp only
      rw [if_pos hf]
      exact hn.note _ rfl

theorem adds_unlink (r : Registry) (w : World μ κ) (name : String) : w.Adds Effect.isPlain (r.unlink w name).2.2 := by
  have hn : w.Adds Effect.isPlain w := .refl w
  unfold unlink
  split
  · split
    · exact hn
    · exact hn.note (.unlinkedWhileOpen name) rfl
  · have hr := adds_remove w name
    split
    · rename_i e w' h
      exact hr.snd h
    · rename_i w' h
      exact (hr.snd h).note (.unlinked name) rfl

end Registry

namespace Descriptors

open World

/-- Opening a file through a table adds plain effects, whether it succeeds or not. -/
theorem adds_openFile (t : Descriptors) (r : Registry) (w : World μ κ) (name : String) (mode : OpenMode) :
    w.Adds Effect.isPlain (t.openFile r w name mode).2.2 := by
  unfold openFile
  split
  · exact .refl w
  · rename_i fd hfd
    have ha := Registry.adds_acquire r w name mode
    split
    · rename_i e r' w' h
      exact ha.trd h
    · rename_i file r' w' h
      exact (ha.trd h).note (.descriptorOpened name fd.slot) rfl

/-- Closing a descriptor is quiet. -/
theorem adds_close (t : Descriptors) (r : Registry) (w : World μ κ) (fd : Fd) :
    w.Adds Effect.isQuiet (t.close r w fd).2.2 := by
  have hn : w.Adds Effect.isQuiet w := .refl w
  unfold close
  split
  · exact hn
  · split
    · exact hn.note (.descriptorClosed fd.slot) rfl
    · rename_i file hf
      exact (Registry.adds_release r w file).note (.descriptorClosed fd.slot) rfl

theorem adds_releaseAll (r : Registry) (w : World μ κ) (files : List OpenFile) :
    w.Adds Effect.isQuiet (releaseAll r w files).2 := by
  induction files generalizing r w with
  | nil => exact .refl w
  | cons file rest ih =>
    rw [releaseAll, List.foldl_cons, ← releaseAll]
    exact (Registry.adds_release r w file).trans (ih _ _)

variable [Console κ]

theorem adds_fetch (t : Descriptors) (w : World μ κ) (fd : Fd) (count : Nat) :
    w.Adds Effect.isPlain (t.fetch w fd count).2 := by
  unfold fetch
  split
  · exact .refl w
  · rename_i d hd
    split
    · exact .refl w
    · exact adds_takeTyped w count
    · rename_i file hs
      have hr := adds_readAt w file.object d.cursor count
      split
      · rename_i e w' h
        exact hr.snd h
      · rename_i transfer w' h
        exact hr.snd h

/-- Reading adds plain effects, whether it succeeds or not. -/
theorem adds_readWith {α : Type} (t : Descriptors) (w : World μ κ) (fd : Fd) (count : Nat)
    (deliver : List UInt8 → Except KernelError α) : w.Adds Effect.isPlain (t.readWith w fd count deliver).2 := by
  have hf := adds_fetch t w fd count
  unfold readWith
  split
  · rename_i e w' h
    exact hf.snd h
  · rename_i d bytes w' h
    split
    · exact hf.snd h
    · exact (hf.snd h).note (.descriptorRead fd.slot bytes.length) rfl

/-- Writing adds plain effects, whether it succeeds or not. -/
theorem adds_write (t : Descriptors) (w : World μ κ) (fd : Fd) (data : List UInt8) :
    w.Adds Effect.isPlain (t.write w fd data).2 := by
  unfold write
  split
  · exact .refl w
  · rename_i d hd
    split
    · exact .refl w
    · exact (adds_display w data).note _ rfl
    · rename_i file hs
      have hw := adds_writeAt w file.object d.cursor data
      split
      · rename_i e w' h
        exact hw.snd h
      · rename_i claimed w' h
        exact (hw.snd h).note _ rfl

end Descriptors

end Files

/-! ## Moves -/

namespace Kernel

variable {k k' : Kernel μ κ}

/-! ### What becomes of the table -/

theorem next_putLive (t : ProcessTable) (pid : Pid) (process : Process) : (t.putLive pid process).next = t.next := by
  unfold ProcessTable.putLive
  split <;> rfl

/-- The kernel after the end of a running process whose record and belongings are given. -/
def afterEnd [Medium μ] (k : Kernel μ κ) (pid : Pid) (record : Record) (process : Process) (status : ExitStatus) : Kernel μ κ :=
  let released := Descriptors.releaseAll k.registry k.world process.descriptors.files
  let discarded := (k.processes.forsaken record.children.toList).map (Notice.discarded · pid)
  { k with
    processes := k.processes.retire pid record status
    registry := released.1
    world := ((released.2.noteAll discarded).unblockAll k.processes.waiting.wakeAll.1).note
      (.exited pid status (k.processes.retire pid record status).running) }

/-- The end of a process that runs ends it. -/
theorem endProcess_of_running [Medium μ] {k : Kernel μ κ} {pid : Pid} {record : Record} {process : Process}
    (hr : k.processes.record? pid = some record) (hp : record.process? = some process) (status : ExitStatus) :
    (k.endProcess pid status).2 = k.afterEnd pid record process status := by
  unfold endProcess ProcessTable.exit
  rw [hr]
  dsimp only
  rw [hp]
  rfl

/-- The end of a process either ends it or, when it does not run, changes nothing. -/
theorem endProcess_cases [Medium μ] (k : Kernel μ κ) (pid : Pid) (status : ExitStatus) :
    (k.endProcess pid status).2 = k ∨
      ∃ record process, k.processes.record? pid = some record ∧ record.process? = some process ∧
        (k.endProcess pid status).2 = k.afterEnd pid record process status := by
  cases hr : k.processes.record? pid with
  | none => exact .inl (by rw [endProcess, ProcessTable.exit, hr])
  | some record =>
    cases hp : record.process? with
    | none =>
      refine .inl ?_
      rw [endProcess, ProcessTable.exit, hr]
      dsimp only
      rw [hp]
    | some process => exact .inr ⟨record, process, rfl, hp, endProcess_of_running hr hp status⟩

/-- Halting drops the processes, unless the machine had halted. -/
theorem processes_shutDown (k : Kernel μ κ) :
    k.shutDown.processes = if k.halted then k.processes else k.dropProcesses.processes := by
  unfold shutDown
  split <;> rfl

/-- After a halt the machine has halted. -/
@[simp] theorem halted_shutDown (k : Kernel μ κ) : k.shutDown.halted = true := by
  unfold shutDown
  split
  · assumption
  · rfl

theorem next_endProcess [Medium μ] (k : Kernel μ κ) (pid : Pid) (status : ExitStatus) :
    (k.endProcess pid status).2.processes.next = k.processes.next := by
  rcases endProcess_cases k pid status with he | ⟨record, process, -, -, he⟩ <;> rw [he]
  rfl

theorem next_shutDown (k : Kernel μ κ) : k.shutDown.processes.next = k.processes.next := by
  rw [processes_shutDown]
  split <;> rfl

/-! ### What is added to the outside -/

variable [Medium μ] [Console κ] {powers : Power → Prop}

open World

omit [Medium μ] [Console κ] in
/-- Dropping the processes wakes threads and does nothing else to the outside. -/
theorem adds_dropProcesses (k : Kernel μ κ) : k.world.Adds Effect.isOrdinary k.dropProcesses.world :=
  adds_unblockAll k.world _

omit [Medium μ] [Console κ] in
theorem adds_shutDown (k : Kernel μ κ) : k.world.Adds Effect.isOrdinary k.shutDown.world := by
  unfold shutDown
  split
  · exact .refl _
  · exact (adds_dropProcesses k).trans (adds_emit _ .poweredOff rfl)

omit [Console κ] in
/-- Besides the releases of its files the end of a process adds ordinary effects. -/
theorem adds_afterEnd {kind : Effect → Bool} (hk : ∀ effect, effect.isOrdinary = true → kind effect = true) (k : Kernel μ κ)
    (pid : Pid) (record : Record) (process : Process) (status : ExitStatus)
    (h : k.world.Adds kind (Descriptors.releaseAll k.registry k.world process.descriptors.files).2) :
    k.world.Adds kind (k.afterEnd pid record process status).world := by
  refine ((h.trans (adds_noteAll _ _ ?_)).trans ((adds_unblockAll _ _).mono hk)).note _ (hk _ rfl)
  intro event he
  obtain ⟨child, -, rfl⟩ := List.mem_map.mp he
  exact hk _ rfl

omit [Console κ] in
/-- The end of a process starts none. -/
theorem adds_endProcess (k : Kernel μ κ) (pid : Pid) (status : ExitStatus) :
    k.world.Adds (!·.isStart) (k.endProcess pid status).2.world := by
  rcases endProcess_cases k pid status with he | ⟨record, process, -, -, he⟩
  · rw [he]
    exact .refl _
  · rw [he]
    exact adds_afterEnd not_isStart_of_isOrdinary k pid record process status
      ((Descriptors.adds_releaseAll _ _ _).mono not_isStart_of_isQuiet)

/-- A process is started and a number given out with every enrolment, and at no other move. -/
theorem starts_of_move (h : Move powers k k') :
    k'.world.starts = k.world.starts ∧ k'.processes.next = k.processes.next ∨
      powers .enrol ∧ k'.world.starts = k.world.starts + 1 ∧ ∃ parent program image pid,
        k.processes.enrol parent program image k.settings.slots = .ok (pid, k'.processes) := by
  cases h with
  | note event he => exact .inl ⟨((Adds.refl k.world).note event he).quiet.starts_of_quiet, rfl⟩
  | asleep thread hp => exact .inl ⟨(adds_emit k.world (.blocked thread) rfl).starts_of_ordinary, rfl⟩
  | awake thread hp => exact .inl ⟨rfl, rfl⟩
  | enrolled hp info he =>
    refine .inr ⟨hp, ?_, _, _, _, _, he⟩
    simp [World.starts, Effect.isStart]
  | @reaped caller child status records hp hr =>
    exact .inl ⟨((Adds.refl k.world).note (.reaped caller child status) rfl).starts_of_ordinary, rfl⟩
  | memory hl memory => exact .inl ⟨rfl, next_putLive ..⟩
  | @opened pid process name mode fd descriptors registry world hp hl ho =>
    have ha := process.descriptors.adds_openFile k.registry k.world name mode
    exact .inl ⟨(ha.trd ho).quiet.starts_of_quiet, next_putLive ..⟩
  | @notOpened descriptors name mode e registry world hp ho =>
    have ha := descriptors.adds_openFile k.registry k.world name mode
    exact .inl ⟨(ha.trd ho).quiet.starts_of_quiet, rfl⟩
  | @closed pid process fd descriptors registry world hp hl hc =>
    have ha := process.descriptors.adds_close k.registry k.world fd
    exact .inl ⟨(ha.trd hc).starts_of_quiet, next_putLive ..⟩
  | unlinked name hp => exact .inl ⟨(Registry.adds_unlink k.registry k.world name).quiet.starts_of_quiet, rfl⟩
  | @read pid process fd count deliver bytes memory descriptors world hp hl hr =>
    have ha := process.descriptors.adds_readWith k.world fd count deliver
    exact .inl ⟨(ha.snd hr).quiet.starts_of_quiet, next_putLive ..⟩
  | @notRead descriptors fd count deliver e world hp hr =>
    have ha := descriptors.adds_readWith k.world fd count deliver
    exact .inl ⟨(ha.snd hr).quiet.starts_of_quiet, rfl⟩
  | @written pid process fd data count descriptors world hp hl hw =>
    have ha := process.descriptors.adds_write k.world fd data
    exact .inl ⟨(ha.snd hw).quiet.starts_of_quiet, next_putLive ..⟩
  | @notWritten descriptors fd data e world hp hw =>
    have ha := descriptors.adds_write k.world fd data
    exact .inl ⟨(ha.snd hw).quiet.starts_of_quiet, rfl⟩
  | ended pid status hp => exact .inl ⟨(adds_endProcess k pid status).starts, next_endProcess k pid status⟩
  | shutDown hp => exact .inl ⟨(adds_shutDown k).starts_of_ordinary, next_shutDown k⟩
  | dropped hp => exact .inl ⟨(adds_dropProcesses k).starts_of_ordinary, rfl⟩

/-- No process that was started is forgotten. -/
theorem starts_le_of_move (h : Move powers k k') : k.world.starts ≤ k'.world.starts := by
  rcases starts_of_move h with ⟨he, -⟩ | ⟨-, he, -⟩ <;> omega

theorem starts_le_of_moves (h : Moves powers k k') : k.world.starts ≤ k'.world.starts := by
  induction h with
  | refl => exact Nat.le_refl _
  | tail _ hm ih => exact Nat.le_trans ih (starts_le_of_move hm)

/-- No move changes the settings. -/
theorem settings_of_move (h : Move powers k k') : k'.settings = k.settings := by
  cases h with
  | shutDown hp =>
    unfold shutDown
    split <;> rfl
  | _ => rfl

/-- What holds of the first kernel and is kept by every move, as long as the process numbers last, holds of the last. -/
theorem Moves.keeps {P : Kernel μ κ → Prop} {bound : Nat} (h : Moves powers k k') (hb : k'.world.starts < bound)
    (hP : P k) (step : ∀ k k' : Kernel μ κ, Move powers k k' → k'.world.starts < bound → P k → P k') : P k' := by
  induction h with
  | refl => exact hP
  | tail _ hm ih => exact step _ _ hm hb (ih (Nat.lt_of_le_of_lt (starts_le_of_move hm) hb))

end Kernel

end Nucleus
