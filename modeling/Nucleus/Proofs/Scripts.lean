import Nucleus.Proofs.Moves

/-!
# Runs that can be played

A run is a relation between machines. What outside does in each of its steps can also be written down as a turn, and a script of
turns played from a machine on. Playing scripts leads just where runs lead (`leads_iff_exists_play`), so a run can be given by its
script and the machine that it reaches be computed.
-/

namespace Nucleus

/-- How an operation that waits is answered. -/
inductive Reply where
  /-- The loader answers. -/
  | loaded (image : Except LoadError ProgramImage)
  /-- The operation may go on. -/
  | goOn

/-- The answer that a reply is to an operation, if it waits for such a one. -/
def Reply.answer? : Reply → (s : Suspended) → Option s.Answer
  | .loaded image, .loading .. => some image
  | .goOn, .starting .. => some ()
  | .goOn, .sleeping .. => some ()
  | _, _ => none

/-- There is a reply for every answer. -/
theorem Reply.exists_answer? (s : Suspended) (a : s.Answer) : ∃ reply : Reply, reply.answer? s = some a := by
  cases s with
  | loading parent program args use => exact ⟨.loaded a, rfl⟩
  | starting pid use => exact ⟨.goOn, rfl⟩
  | sleeping thread caller child use => exact ⟨.goOn, rfl⟩

/-- What outside does in a step. -/
inductive Turn where
  /-- It makes a call. -/
  | call (thread : ThreadId) (c : Call)
  /-- It answers the operation that waits in a place, the latest being in the first. -/
  | answer (place : Nat) (reply : Reply)
  /-- It changes the memory of a running process. -/
  | memory (pid : Pid) (change : AddressSpace → Except KernelError AddressSpace)

/-- Whether a turn makes only such calls. -/
def Turn.Makes (allowed : Call → Prop) : Turn → Prop
  | .call _ c => allowed c
  | _ => True

instance (allowed : Call → Prop) [DecidablePred allowed] : DecidablePred (Turn.Makes allowed)
  | .call _ c => inferInstanceAs (Decidable (allowed c))
  | .answer .. => inferInstanceAs (Decidable True)
  | .memory .. => inferInstanceAs (Decidable True)

/-- A call that starts a program, up to the program's first instruction: the loader answers with a page of blank memory, and the
scheduler lets the program go. -/
def started (c : Call) : List Turn :=
  [.call ⟨0⟩ c, .answer 0 (.loaded (ProgramImage.build (.blank 1) 0 [])), .answer 0 .goOn]

namespace Machine

variable {μ κ : Type} [Medium μ] [Console κ]

/-- The machine after a turn. An answer for which nobody waits changes nothing. -/
def turn (m : Machine μ κ) : Turn → Machine μ κ
  | .call thread c => (m.call thread c).1
  | .answer place reply =>
    match m.waiting[place]? with
    | none => m
    | some s =>
      match reply.answer? s with
      | none => m
      | some a => (settle (m.waiting.eraseIdx place) (m.kernel.resume s a)).1
  | .memory pid change => ⟨(m.kernel.changeMemory pid change).2, m.waiting⟩

/-- The machine after a script of turns. -/
def play (m : Machine μ κ) (turns : List Turn) : Machine μ κ := turns.foldl turn m

variable {allowed : Call → Prop}

/-- A turn is a step, or nobody waited for it. -/
theorem turn_cases (m : Machine μ κ) (t : Turn) (h : t.Makes allowed) : m.turn t = m ∨ ∃ r, Step allowed m r ∧ m.turn t = r.1 := by
  cases t with
  | call thread c => exact .inr ⟨_, .call m thread c h, rfl⟩
  | memory pid change => exact .inr ⟨_, .memory m pid change, rfl⟩
  | answer place reply =>
    unfold turn
    dsimp only
    split
    · exact .inl rfl
    · rename_i s hs
      split
      · exact .inl rfl
      · rename_i a ha
        obtain ⟨hp, rfl⟩ := List.getElem?_eq_some_iff.mp hs
        have hw : m.waiting = m.waiting.take place ++ m.waiting[place] :: m.waiting.drop (place + 1) := by
          rw [List.getElem_cons_drop, List.take_append_drop]
        have hstep : Step allowed ⟨m.kernel, m.waiting.take place ++ m.waiting[place] :: m.waiting.drop (place + 1)⟩ _ :=
          .answer m.kernel _ _ m.waiting[place] a
        rw [← hw, ← List.eraseIdx_eq_take_drop_succ] at hstep
        exact .inr ⟨_, hstep, rfl⟩

theorem leads_turn (m : Machine μ κ) (t : Turn) (h : t.Makes allowed) : Leads allowed m (m.turn t) := by
  rcases turn_cases m t h with he | ⟨r, hs, he⟩
  · rw [he]
    exact .refl m
  · rw [he]
    exact (Leads.refl m).step hs

/-- A step is a turn. -/
theorem exists_turn_of_step {m : Machine μ κ} {r : Machine μ κ × Option Outcome} (h : Step allowed m r) :
    ∃ t : Turn, t.Makes allowed ∧ m.turn t = r.1 := by
  cases h with
  | call _ thread c hc => exact ⟨.call thread c, hc, rfl⟩
  | memory _ pid change => exact ⟨.memory pid change, trivial, rfl⟩
  | answer k before after s a =>
    obtain ⟨reply, hr⟩ := Reply.exists_answer? s a
    refine ⟨.answer before.length reply, trivial, ?_⟩
    have hs : (before ++ s :: after)[before.length]? = some s := by simp
    have he : (before ++ s :: after).eraseIdx before.length = before ++ after := by
      simp [List.eraseIdx_append_of_length_le]
    simp only [turn, hs, hr, he]

/-- Playing scripts leads where runs lead. -/
theorem leads_iff_exists_play {m m' : Machine μ κ} :
    Leads allowed m m' ↔ ∃ turns : List Turn, (∀ t ∈ turns, t.Makes allowed) ∧ m.play turns = m' := by
  constructor
  · intro h
    induction h with
    | refl => exact ⟨[], fun _ ht => absurd ht List.not_mem_nil, rfl⟩
    | step _ hs ih =>
      obtain ⟨turns, hm, hp⟩ := ih
      obtain ⟨t, ht, he⟩ := exists_turn_of_step hs
      refine ⟨turns ++ [t], ?_, ?_⟩
      · intro t' hi
        rcases List.mem_append.mp hi with hi | hi
        · exact hm t' hi
        · rw [List.mem_singleton.mp hi]
          exact ht
      · unfold play at hp ⊢
        rw [List.foldl_append, hp]
        exact he
  · rintro ⟨turns, hm, rfl⟩
    induction turns generalizing m with
    | nil => exact .refl m
    | cons t rest ih =>
      have ht := leads_turn m t (hm t List.mem_cons_self)
      exact ht.trans (ih fun t' hi => hm t' (List.mem_cons_of_mem t hi))

/-- What a script reaches from before the first call, a run reaches. -/
theorem reached_play (settings : Settings) (medium : μ) (console : κ) (turns : List Turn)
    (h : ∀ t ∈ turns, t.Makes allowed) : Reached allowed settings ((start settings medium console).play turns) :=
  ⟨medium, console, leads_iff_exists_play.mpr ⟨turns, h, rfl⟩⟩

end Machine

end Nucleus
