import Nucleus.Proofs.Accounts
import Nucleus.Proofs.Results
import Nucleus.Proofs.Scripts
import Nucleus.Device.Faulty
import Nucleus.Device.RamDisk

/-!
# A system call that fails changes nothing

Whenever a system call comes to an error, nothing has changed but for what was reported: whatever may fail, fails before the first
table is touched, a byte is taken from the console or a status from a child. It is relied on of the medium that it leaves all files
as they were when it refuses a request (`Medium.Honest`); the medium in memory does, and so does one with faults on schedule.
-/

namespace Nucleus

/-! ## What is left as it was -/

/-- Whether an effect is a report. -/
def Effect.isNotice : Effect → Bool
  | .notice _ => true
  | _ => false

/-- A medium leaves what one sees of it as it was whenever it refuses a request. -/
structure Medium.Honest {μ σ : Type} [Medium μ] (view : μ → σ) : Prop where
  /-- It makes no object. -/
  create : ∀ {d name e d'}, Medium.create d name = (.error e, d') → view d' = view d
  /-- It finds no object. -/
  find : ∀ {d name e d'}, Medium.find d name = (.error e, d') → view d' = view d
  /-- It removes no name. -/
  remove : ∀ {d name e d'}, Medium.remove d name = (.error e, d') → view d' = view d
  /-- It reads nothing. -/
  readAt : ∀ {d id position count e d'}, Medium.readAt d id position count = (.error e, d') → view d' = view d
  /-- It writes nothing. -/
  writeAt : ∀ {d id position data e d'}, Medium.writeAt d id position data = (.error e, d') → view d' = view d
  /-- It truncates nothing. -/
  truncate : ∀ {d id e d'}, Medium.truncate d id = (.error e, d') → view d' = view d

/-- The medium in memory is left as it was. -/
theorem RamDisk.honest : Medium.Honest (id : RamDisk → RamDisk) where
  create h := by cases h
  find h := (congrArg Prod.snd h).symm
  remove h := by
    change RamDisk.remove _ _ = _ at h
    unfold RamDisk.remove at h
    split at h
    · cases h
    · cases h
      rfl
  readAt h := by cases h
  writeAt h := by
    change RamDisk.writeAt _ _ _ _ = _ at h
    unfold RamDisk.writeAt at h
    split at h
    · split at h
      · cases h
      · cases h
        rfl
    · cases h
  truncate h := by cases h

namespace Faulty

variable {δ α σ : Type} {f f' : Faulty δ} {request : Request} {e : StorageError}

/-- A request is refused by a fault, and not put to what is underneath, or what is underneath refuses it. -/
theorem ask_error {act : Option Fault → δ → Except StorageError α × δ} (h : f.ask request act = (.error e, f')) :
    f'.device = f.device ∨ ∃ fault, act fault f.device = (.error e, f'.device) := by
  unfold ask at h
  split at h
  · cases h
    exact .inl rfl
  · rename_i fault schedule _ _
    right
    refine ⟨fault, ?_⟩
    cases hact : act fault f.device with
    | mk result d =>
      rw [hact] at h
      cases h
      rfl

/-- A transfer that is told otherwise fails where the transfer fails. -/
theorem error_of_map {β : Type} {tell : α → β} {p : Except StorageError α × δ} {d : δ} (h : (p.1.map tell, p.2) = (.error e, d)) :
    p = (.error e, d) := by
  obtain ⟨result, d'⟩ := p
  cases result with
  | ok a => cases h
  | error e' =>
    cases h
    rfl

/-- What is underneath a schedule of faults is left as it was, if it is otherwise. -/
theorem honest {μ : Type} [Medium μ] {view : μ → σ} (hm : Medium.Honest view) :
    Medium.Honest fun f : Faulty μ => view f.device where
  create h := by
    rcases ask_error h with he | ⟨fault, he⟩
    · rw [he]
    · exact hm.create he
  find h := by
    rcases ask_error h with he | ⟨fault, he⟩
    · rw [he]
    · exact hm.find he
  remove h := by
    rcases ask_error h with he | ⟨fault, he⟩
    · rw [he]
    · exact hm.remove he
  readAt h := by
    rcases ask_error h with he | ⟨fault, he⟩
    · rw [he]
    · exact hm.readAt (error_of_map he)
  writeAt h := by
    rcases ask_error h with he | ⟨fault, he⟩
    · rw [he]
    · exact hm.writeAt (error_of_map he)
  truncate h := by
    rcases ask_error h with he | ⟨fault, he⟩
    · rw [he]
    · exact hm.truncate he

end Faulty

/-- The world is left as it was, as far as one sees the medium, but for reports. -/
structure World.Spared {μ κ σ : Type} (view : μ → σ) (w w' : World μ κ) : Prop where
  /-- The medium looks as before. -/
  medium : view w'.medium = view w.medium
  /-- The console has been left alone. -/
  console : w'.console = w.console
  /-- No open file was made. -/
  opened : w'.opened = w.opened
  /-- Nothing was done to the outside but report. -/
  reported : w.Adds Effect.isNotice w'

/-- The kernel is left as it was, as far as one sees the medium, but for reports. -/
structure Kernel.Unchanged {μ κ σ : Type} (view : μ → σ) (k k' : Kernel μ κ) : Prop where
  /-- The settings are the same. -/
  settings : k'.settings = k.settings
  /-- So are all processes, with what they own, the next number and the queue. -/
  processes : k'.processes = k.processes
  /-- So is the registry. -/
  registry : k'.registry = k.registry
  /-- The machine has halted or not as before. -/
  halted : k'.halted = k.halted
  /-- The world was spared. -/
  world : k.world.Spared view k'.world

section Spared

variable {μ κ σ : Type} {view : μ → σ} {w w' w'' : World μ κ} {e : StorageError}

namespace World

theorem Spared.refl (w : World μ κ) : w.Spared view w := ⟨rfl, rfl, rfl, .refl w⟩

theorem Spared.trans (h : w.Spared view w') (h' : w'.Spared view w'') : w.Spared view w'' :=
  ⟨h'.medium.trans h.medium, h'.console.trans h.console, h'.opened.trans h.opened, h.reported.trans h'.reported⟩

theorem spared_note (w : World μ κ) (event : Notice) : w.Spared view (w.note event) :=
  ⟨rfl, rfl, rfl, adds_emit w _ rfl⟩

/-- A request to the medium that leaves it as it looked spares the world. -/
theorem spared_medium {medium : μ} (h : view medium = view w.medium) : w.Spared view { w with medium } := ⟨h, rfl, rfl, .of_eq rfl⟩

variable [Medium μ] (hm : Medium.Honest view)

include hm

theorem spared_create {name : String} (h : w.create name = (.error e, w')) : w.Spared view w' := by
  unfold create at h
  split at h
  · cases h
  · rename_i hr
    cases h
    exact spared_medium (hm.create hr)

theorem spared_find {name : String} (h : w.find name = (.error e, w')) : w.Spared view w' := by
  unfold find at h
  split at h
  rename_i hr
  cases h
  exact spared_medium (hm.find hr)

theorem spared_remove {name : String} (h : w.remove name = (.error e, w')) : w.Spared view w' := by
  unfold remove at h
  split at h
  · cases h
  · rename_i hr
    cases h
    exact spared_medium (hm.remove hr)

theorem spared_readAt {id : ObjectId} {position count : Nat} (h : w.readAt id position count = (.error e, w')) :
    w.Spared view w' := by
  unfold readAt at h
  split at h
  rename_i hr
  cases h
  exact spared_medium (hm.readAt hr)

theorem spared_writeAt {id : ObjectId} {position : Nat} {data : List UInt8} (h : w.writeAt id position data = (.error e, w')) :
    w.Spared view w' := by
  unfold writeAt at h
  split at h
  rename_i hr
  cases h
  exact spared_medium (hm.writeAt hr)

theorem spared_truncate {id : ObjectId} (h : w.truncate id = (.error e, w')) : w.Spared view w' := by
  unfold truncate at h
  split at h
  rename_i hr
  cases h
  exact spared_medium (hm.truncate hr)

end World

end Spared

section Files

variable {μ κ σ : Type} [Medium μ] {view : μ → σ} (hm : Medium.Honest view) {w w' : World μ κ} {r r' : Registry}

include hm

namespace Registry

open World

theorem spared_lookUp {name : String} {mode : OpenMode} {e : StorageError} (h : lookUp w name mode = (.error e, w')) :
    w.Spared view w' := by
  unfold lookUp at h
  split at h
  · exact spared_find hm h
  · split at h
    · exact spared_create hm h
    · split at h
      · rename_i w₁ hf
        exact (spared_find hm hf).trans (spared_create hm h)
      · exact spared_find hm h

/-- A name that cannot be opened takes no reference, and no file is touched. -/
theorem spared_acquire {name : String} {mode : OpenMode} {e : KernelError} (h : r.acquire w name mode = (.error e, r', w')) :
    r' = r ∧ w.Spared view w' := by
  refine ⟨acquire_error h, ?_⟩
  unfold acquire acquireNew acquireShared at h
  split at h
  · split at h
    · rename_i hl
      cases h
      exact spared_lookUp hm hl
    · cases h
  · split at h
    · cases h
      exact .refl w
    · split at h
      · split at h
        · rename_i ht
          cases h
          exact spared_truncate hm ht
        · cases h
      · cases h

/-- A name that cannot be unlinked is not marked, and no file is touched. -/
theorem spared_unlink {name : String} {e : KernelError} (h : r.unlink w name = (.error e, r', w')) :
    r' = r ∧ w.Spared view w' := by
  unfold unlink at h
  split at h
  · split at h
    · cases h
      exact ⟨rfl, .refl w⟩
    · cases h
  · split at h
    · rename_i hr
      cases h
      exact ⟨rfl, spared_remove hm hr⟩
    · cases h

end Registry

namespace Descriptors

open World

variable {t : Descriptors} {fd : Fd} {e : KernelError}

theorem spared_openFile {name : String} {mode : OpenMode} (h : t.openFile r w name mode = (.error e, r', w')) :
    r' = r ∧ w.Spared view w' := by
  unfold openFile at h
  split at h
  · cases h
    exact ⟨rfl, .refl w⟩
  · split at h
    · rename_i ha
      cases h
      exact Registry.spared_acquire hm ha
    · cases h

omit hm in
theorem spared_close (h : t.close r w fd = (.error e, r', w')) : r' = r ∧ w.Spared view w' := by
  unfold close at h
  split at h
  · cases h
    exact ⟨rfl, .refl w⟩
  · split at h
    · cases h
    · cases h

variable [Console κ]

/-- Where nothing can be fetched the console is not asked, and no file is touched. -/
theorem spared_fetch {count : Nat} (h : t.fetch w fd count = (.error e, w')) : w.Spared view w' := by
  unfold fetch at h
  split at h
  · cases h
    exact .refl w
  · split at h
    · cases h
      exact .refl w
    · cases h
    · split at h
      · rename_i hr
        cases h
        exact spared_readAt hm hr
      · cases h

omit hm in
/-- No more bytes are fetched than were asked for. -/
theorem length_le_of_fetch {count : Nat} {d : Descriptor} {bytes : List UInt8} (h : t.fetch w fd count = (.ok (d, bytes), w')) :
    bytes.length ≤ count := by
  have hfill : ∀ transfer : Transfer, ((transfer.fill count).take transfer.claimed).length ≤ count := by
    intro transfer
    rw [List.length_take, Transfer.length_fill]
    exact Nat.min_le_right _ _
  unfold fetch at h
  split at h
  · cases h
  · split at h
    · cases h
    · cases h
      exact hfill _
    · split at h
      · cases h
      · cases h
        exact hfill _

/-- A read whose bytes can be delivered, however many they are, fails only where nothing can be fetched. -/
theorem spared_readWith {α : Type} {count : Nat} {deliver : List UInt8 → Except KernelError α}
    (hd : ∀ bytes : List UInt8, bytes.length ≤ count → ∃ a, deliver bytes = .ok a)
    (h : t.readWith w fd count deliver = (.error e, w')) : w.Spared view w' := by
  unfold readWith at h
  split at h
  · rename_i hf
    cases h
    exact spared_fetch hm hf
  · rename_i d bytes w₁ hf
    obtain ⟨a, ha⟩ := hd bytes (length_le_of_fetch hf)
    rw [ha] at h
    cases h

theorem spared_write {data : List UInt8} (h : t.write w fd data = (.error e, w')) : w.Spared view w' := by
  unfold write at h
  split at h
  · cases h
    exact .refl w
  · split at h
    · cases h
      exact .refl w
    · cases h
    · split at h
      · rename_i hw
        cases h
        exact spared_writeAt hm hw
      · cases h

end Descriptors

end Files

/-! ## System calls that fail -/

namespace Kernel

variable {μ κ σ : Type} {view : μ → σ} {k k' k'' : Kernel μ κ} {pid : Pid} {args : Arguments} {e : KernelError}

theorem Unchanged.refl (k : Kernel μ κ) : k.Unchanged view k := ⟨rfl, rfl, rfl, rfl, .refl _⟩

theorem Unchanged.trans (h : k.Unchanged view k') (h' : k'.Unchanged view k'') : k.Unchanged view k'' :=
  ⟨h'.settings.trans h.settings, h'.processes.trans h.processes, h'.registry.trans h.registry, h'.halted.trans h.halted,
    h.world.trans h'.world⟩

/-- A report changes nothing else. -/
theorem Unchanged.note (h : k.Unchanged view k') (event : Notice) : k.Unchanged view (k'.note event) :=
  h.trans ⟨rfl, rfl, rfl, rfl, World.spared_note _ event⟩

/-- Nor does work on files that leaves the registry and spares the world. -/
theorem unchanged_withFiles {registry : Registry} {world : World μ κ} (h : registry = k.registry ∧ k.world.Spared view world) :
    k.Unchanged view (k.withFiles registry world) :=
  ⟨rfl, rfl, h.1, rfl, h.2⟩

theorem unchanged_haltNow (h : k.haltNow pid = (.error e, k')) : k.Unchanged view k' := by
  unfold haltNow halt at h
  cases hl : k.processes.live pid with
  | error e' =>
    rw [hl] at h
    cases h
    exact (Unchanged.refl k).note _
  | ok process =>
    rw [hl] at h
    dsimp only at h
    by_cases hp : k.settings.haltPolicy = .rootOnly ∧ k.processes.root ≠ some pid
    · rw [if_pos hp] at h
      cases h
      exact ((Unchanged.refl k).note _).note _
    · rw [if_neg hp] at h
      cases h

theorem unchanged_execNow {image : Except LoadError ProgramImage}
    (h : k.execNow image pid args = (.error e, k')) : k.Unchanged view k' := by
  unfold execNow at h
  split at h
  · cases h
    exact .refl k
  · split at h
    · cases h
      exact ((Unchanged.refl k).note _).note _
    · dsimp only at h
      split at h
      · cases h
        exact (Unchanged.refl k).note _
      · cases h

/-- A status that is taken can be stored, since the place for it was checked, so a join that fails has taken none. -/
theorem unchanged_joinNow (h : k.joinNow pid args = some (.error e, k')) : k.Unchanged view k' := by
  unfold joinNow at h
  split at h
  · cases h
    exact .refl k
  · rename_i child ha
    split at h
    · cases h
      exact .refl k
    · cases h
    · rename_i status records hr
      obtain ⟨process, hl, hc⟩ := joinArguments_eq_ok ha
      have hl' := ProcessTable.live_reap_of_live hr hl
      rw [Option.some.injEq] at h
      cases hn : (Address.mk args.a1).isNull with
      | true =>
        rw [storeCode_of_isNull hn] at h
        cases h
      | false =>
        obtain ⟨memory, -, hstore⟩ := storeCode_of_check
          (k := { k with processes := { k.processes with records } }.note (.reaped pid child status)) hn hl' (hc hn) status
        rw [hstore] at h
        cases h

section Medium

variable [Medium μ]

/-- Where there is no process to end none is ended. -/
theorem unchanged_exitNow {status : ExitStatus} (h : k.exitNow pid status = (.error e, k')) : k.Unchanged view k' := by
  unfold exitNow exit endProcess ProcessTable.exit at h
  cases hr : k.processes.record? pid with
  | none =>
    rw [hr] at h
    cases h
    exact .refl k
  | some record =>
    rw [hr] at h
    dsimp only at h
    cases hp : record.process? with
    | none =>
      rw [hp] at h
      cases h
      exact .refl k
    | some process =>
      rw [hp] at h
      cases h

theorem unchanged_sysClose (h : k.sysClose pid args = (.error e, k')) : k.Unchanged view k' := by
  unfold sysClose at h
  split at h
  · cases h
    exact .refl k
  · split at h
    · cases h
      exact .refl k
    · split at h
      · rename_i hc
        cases h
        exact unchanged_withFiles (Descriptors.spared_close hc)
      · cases h

variable (hm : Medium.Honest view)

include hm

theorem unchanged_sysOpen {mode : OpenMode} (h : k.sysOpen pid args mode = (.error e, k')) : k.Unchanged view k' := by
  unfold sysOpen at h
  split at h
  · cases h
    exact .refl k
  · split at h
    · rename_i ho
      cases h
      exact unchanged_withFiles (Descriptors.spared_openFile hm ho)
    · cases h

theorem unchanged_sysUnlink (h : k.sysUnlink pid args = (.error e, k')) : k.Unchanged view k' := by
  unfold sysUnlink at h
  split at h
  · cases h
    exact .refl k
  · split at h
    · rename_i hu
      cases h
      exact unchanged_withFiles (Registry.spared_unlink hm hu)
    · cases h

variable [Console κ]

/-- A read that fails has fetched nothing, since what is fetched can be delivered into the range that was checked. -/
theorem unchanged_sysRead (h : k.sysRead pid args = (.error e, k')) : k.Unchanged view k' := by
  unfold sysRead at h
  split at h
  · cases h
    exact .refl k
  · rename_i process fd ha
    have hcheck : process.memory.check ⟨args.a1⟩ args.a2.toNat .write = .ok () := by
      unfold readArguments at ha
      split at ha
      · cases ha
      · split at ha
        · cases ha
        · rename_i hc
          split at ha
          · cases ha
          · cases ha
            exact hc
    have hdeliver : ∀ bytes : List UInt8, bytes.length ≤ args.a2.toNat →
        ∃ memory, process.memory.copyOut ⟨args.a1⟩ bytes = .ok memory := by
      intro bytes hle
      rw [AddressSpace.copyOut, AddressSpace.check_of_le hcheck hle]
      exact ⟨_, rfl⟩
    split at h
    · rename_i hr
      cases h
      exact ⟨rfl, rfl, rfl, rfl, Descriptors.spared_readWith hm hdeliver hr⟩
    · cases h

theorem unchanged_sysWrite (h : k.sysWrite pid args = (.error e, k')) : k.Unchanged view k' := by
  unfold sysWrite at h
  split at h
  · cases h
    exact .refl k
  · split at h
    · rename_i hw
      cases h
      exact ⟨rfl, rfl, rfl, rfl, Descriptors.spared_write hm hw⟩
    · cases h

/-- A system call that comes to an error changes nothing. -/
theorem unchanged_of_handle {image : Except LoadError ProgramImage} {number : UInt64}
    (h : k.handle image pid number args = some (.error e, k')) : k.Unchanged view k' := by
  have hresuming : ∀ {result : Except KernelError Int64 × Kernel μ κ}, resuming result = (.error e, k') →
      result = (.error e, k') := by
    rintro ⟨result, k₁⟩ he
    cases result with
    | ok value => cases he
    | error e' =>
      cases he
      rfl
  have hnoted : ∀ event, k.Unchanged view (k.note event) := fun event => (Unchanged.refl k).note event
  unfold handle at h
  split at h
  · cases h
  · refine (hnoted (.syscall pid number args.toList)).trans ?_
    dsimp only at h
    split at h
    · cases h
      exact (Unchanged.refl _).note _
    · exact unchanged_haltNow (Option.some.inj h)
    · exact unchanged_exitNow (Option.some.inj h)
    · exact unchanged_execNow (hresuming (Option.some.inj h))
    · obtain ⟨result, hj, he⟩ := Option.map_eq_some_iff.mp h
      rw [hresuming he] at hj
      exact unchanged_joinNow hj
    · exact unchanged_sysOpen hm (hresuming (Option.some.inj h))
    · exact unchanged_sysOpen hm (hresuming (Option.some.inj h))
    · exact unchanged_sysRead hm (hresuming (Option.some.inj h))
    · exact unchanged_sysWrite hm (hresuming (Option.some.inj h))
    · exact unchanged_sysClose (hresuming (Option.some.inj h))
    · exact unchanged_sysUnlink hm (hresuming (Option.some.inj h))

/-- Whatever a system call comes to when nothing else happens meanwhile, in any state of the kernel, it is the result that the call
is said to have, and if that is an error, then nothing has changed: no process, with its memory, its descriptors and their cursors,
no entry of the registry, no file, nothing that was typed, and not whether the machine has halted. All that was done is to report.
-/
theorem failed_call_changes_nothing {image : Except LoadError ProgramImage} {thread : ThreadId} {number : UInt64} {trap : Option TrapFrame}
    {outcome : Outcome} (h : Completes image (k.dispatch thread pid number args trap) outcome k') :
    ∃ result, k.handle image pid number args = some (result, k') ∧ outcome = .ofDisposition trap (.after result) ∧
      ∀ e, result = .error e → k.Unchanged view k' := by
  obtain ⟨result, hh, ho⟩ := (comesTo_handle k image thread pid number args trap outcome k').mp h
  refine ⟨result, hh, ho, ?_⟩
  rintro e rfl
  exact unchanged_of_handle hm hh

end Medium

end Kernel

namespace Machine

/-- A program is started on a machine where something is typed and the medium will refuse to make a file; it wants one named f. -/
def wishful : Machine (Faulty RamDisk) Terminal :=
  (start {} { device := .empty none, schedule := { create := [.fail .noSpace] } } ⟨[104, 105]⟩).play
    (started (.boot "init" []) ++ [.memory ⟨1⟩ (·.load (.ofNat 16) [102, 0])])

/-- It does not get one, and nothing has changed. -/
theorem wish_refused :
    ∃ k', wishful.kernel.handle (.error .notFound) ⟨1⟩ 4 ⟨16, 0, 0, 0⟩ = some (.error (.storage .noSpace), k') ∧
      wishful.kernel.Unchanged (fun medium => id medium.device) k' := by
  have hc : Kernel.Completes (.error .notFound) (wishful.kernel.dispatch ⟨0⟩ ⟨1⟩ 4 ⟨16, 0, 0, 0⟩ none) _ _ := .finished _ _
  obtain ⟨result, hh, -, hu⟩ := Kernel.failed_call_changes_nothing (Faulty.honest RamDisk.honest) hc
  have hr : result = .error (.storage .noSpace) := by
    have hboth := congrArg (Option.map Prod.fst) hh
    exact (Option.some.inj hboth).symm
  exact ⟨_, hr ▸ hh, hu _ hr⟩

end Machine

end Nucleus
