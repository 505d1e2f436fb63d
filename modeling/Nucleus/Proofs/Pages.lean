import Mathlib.Data.List.Forall2
import Nucleus.Proofs.Memory

/-!
# What the rights of pages keep

Bytes that the kernel copies in, and texts and words that it reads, come from pages that can be read, and bytes that it copies out go
to pages that can be written. So two memories that differ only in bytes of pages which cannot be read look the same to the kernel
(`SameReadable`), also after the same bytes have been stored in both; and a checked store leaves every page alone that cannot be
written (`Keeps`).
-/

namespace Nucleus

/-- Two pages with the same rights, which are equal if they can be read. -/
structure Page.SameReadable (p q : Page) : Prop where
  /-- The rights. -/
  rights : q.rights = p.rights
  /-- The bytes, if the kernel may see them. -/
  readable : p.rights.contains .read = true → q = p

/-- A page looks like itself. -/
theorem Page.SameReadable.refl (p : Page) : p.SameReadable p := ⟨rfl, fun _ => rfl⟩

/-- Pages that look the same do so after the same bytes were stored in both. -/
theorem Page.SameReadable.store {p q : Page} (h : p.SameReadable q) (offset : Nat) (data : List UInt8) :
    (p.store offset data).SameReadable (q.store offset data) := by
  refine ⟨h.rights, fun hr => ?_⟩
  rw [h.readable hr]

section Runs

variable {ps qs : List Page}

/-- Pages that look the same have the same rights. -/
theorem map_rights_congr (h : List.Forall₂ Page.SameReadable ps qs) : qs.map Page.rights = ps.map Page.rights := by
  induction h with
  | nil => rfl
  | cons hpq _ ih => rw [List.map_cons, List.map_cons, hpq.rights, ih]

/-- What can be read of a run of pages up to the first that cannot. -/
theorem readableRun_congr (h : List.Forall₂ Page.SameReadable ps qs) (place count : Nat) :
    readableRun qs place count = readableRun ps place count := by
  induction h generalizing place count with
  | nil => rfl
  | @cons p q _ _ hpq _ ih =>
    unfold readableRun
    simp only [ih, hpq.rights]
    split
    · rfl
    split
    · rfl
    split
    · rename_i hr
      rw [hpq.readable hr]
    · rfl

/-- Runs of pages that look the same do so after the same bytes were stored in both. -/
theorem storePages_congr (h : List.Forall₂ Page.SameReadable ps qs) (place : Nat) (data : List UInt8) :
    List.Forall₂ Page.SameReadable (storePages ps place data) (storePages qs place data) := by
  induction h generalizing place data with
  | nil => exact .nil
  | cons hpq hrest ih =>
    unfold storePages
    split
    · exact .cons hpq hrest
    split
    · exact .cons hpq (ih _ _)
    · exact .cons (hpq.store _ _) (ih _ _)

/-- Where every byte can be read nothing is missing. -/
theorem readableRun_eq_slicePages {pages : List Page} {place count : Nat}
    (h : ∀ i < count, ∃ p, pages[(place + i) / pageSize]? = some p ∧ p.rights.contains .read = true) :
    readableRun pages place count = slicePages pages place count := by
  have hpage : 0 < pageSize := by decide
  induction pages generalizing place count with
  | nil => rfl
  | cons p rest ih =>
    unfold readableRun slicePages
    split
    · rfl
    rename_i hc
    split
    · -- The run begins behind the first page.
      refine ih fun i hi => ?_
      obtain ⟨q, hq, hr⟩ := h i hi
      rw [show place + i = place - pageSize + i + pageSize by omega, Nat.add_div_right _ hpage, List.getElem?_cons_succ] at hq
      exact ⟨q, hq, hr⟩
    · -- It begins in the first page, and may go on in those behind.
      obtain ⟨q, hq, hr⟩ := h 0 (by omega)
      rw [Nat.div_eq_of_lt (by omega), List.getElem?_cons_zero] at hq
      obtain rfl : p = q := Option.some.inj hq
      rw [if_pos hr]
      congr 1
      refine ih fun i hi => ?_
      obtain ⟨q, hq, hr⟩ := h (pageSize - place + i) (by omega)
      rw [show place + (pageSize - place + i) = 0 + i + pageSize by omega, Nat.add_div_right _ hpage, List.getElem?_cons_succ] at hq
      exact ⟨q, hq, hr⟩

/-- A store changes no page that it does not meet. -/
theorem getElem?_storePages (pages : List Page) (place : Nat) (data : List UInt8) (page : Nat)
    (h : (page + 1) * pageSize ≤ place ∨ place + data.length ≤ page * pageSize) :
    (storePages pages place data)[page]? = pages[page]? := by
  induction pages generalizing place data page with
  | nil => rfl
  | cons p rest ih =>
    unfold storePages
    split
    · rfl
    rename_i hd
    have hpos : 0 < data.length := List.length_pos_iff.mpr (by simpa using hd)
    split
    · cases page with
      | zero => rfl
      | succ page =>
        rw [Nat.succ_mul (page + 1), Nat.succ_mul page] at h
        rw [List.getElem?_cons_succ, List.getElem?_cons_succ]
        refine ih _ _ page ?_
        rw [Nat.succ_mul]
        omega
    · cases page with
      | zero => omega
      | succ page =>
        rw [Nat.succ_mul (page + 1), Nat.succ_mul page] at h
        rw [List.getElem?_cons_succ, List.getElem?_cons_succ]
        refine ih _ _ page (.inr ?_)
        rw [List.length_drop]
        omega

end Runs

namespace AddressSpace

variable {s s' : AddressSpace}

/-! ## What the kernel sees -/

/-- Two memories that differ in nothing but the bytes of pages that cannot be read. -/
def SameReadable (s s' : AddressSpace) : Prop := List.Forall₂ Page.SameReadable s.pages s'.pages

/-- A memory looks like itself. -/
theorem SameReadable.refl (s : AddressSpace) : s.SameReadable s := List.forall₂_same.mpr fun p _ => .refl p

/-- A range that can be read is what is read up to the first page that cannot. -/
theorem copyIn_of_check_read {a : Address} {count : Nat} (h : s.check a count .read = .ok ()) :
    s.copyIn a count = .ok (s.readableFrom a count) := by
  rw [copyIn, h, readableFrom]
  rcases Nat.eq_zero_or_pos count with rfl | hc
  · cases s with
    | mk pages => cases pages <;> rfl
  · refine congrArg Except.ok (readableRun_eq_slicePages fun i hi => ?_).symm
    obtain ⟨rights, hr, hread⟩ := ((check_eq_ok_iff hc).mp h).2 i hi
    obtain ⟨p, hp, rfl⟩ := rights?_eq_some_iff.mp hr
    exact ⟨p, hp, hread⟩

namespace SameReadable

theorem rights? (h : s.SameReadable s') (page : Nat) : s'.rights? page = s.rights? page := by
  have hmap := map_rights_congr h
  rw [AddressSpace.rights?, AddressSpace.rights?, ← List.getElem?_map, ← List.getElem?_map, hmap]

/-- A range is good in both memories or bad in both. -/
theorem check (h : s.SameReadable s') (a : Address) (count : Nat) (needed : Rights) :
    s'.check a count needed = s.check a count needed := by
  by_cases hs : s.check a count needed = .ok ()
  · rw [hs]
    exact check_congr hs fun i _ => h.rights? _
  · rw [check_eq_error hs]
    refine check_eq_error fun hs' => hs ?_
    exact check_congr hs' fun i _ => (h.rights? _).symm

theorem readableFrom (h : s.SameReadable s') (a : Address) (count : Nat) : s'.readableFrom a count = s.readableFrom a count :=
  readableRun_congr h a.toNat count

/-- The same bytes are copied in from both. -/
theorem copyIn (h : s.SameReadable s') (a : Address) (count : Nat) : s'.copyIn a count = s.copyIn a count := by
  by_cases hs : s.check a count .read = .ok ()
  · rw [copyIn_of_check_read hs, copyIn_of_check_read ((h.check a count .read).trans hs), h.readableFrom]
  · rw [copyIn_of_not_check hs, copyIn_of_not_check fun hs' => hs ((h.check a count .read).symm.trans hs')]

/-- The same text is read from both. -/
theorem readText (h : s.SameReadable s') (a : Address) (limit : Nat) : s'.readText a limit = s.readText a limit := by
  unfold AddressSpace.readText
  rw [h.readableFrom]

/-- The same word is read from both. -/
theorem readWord (h : s.SameReadable s') (a : Address) : s'.readWord a = s.readWord a := by
  unfold AddressSpace.readWord
  rw [h.copyIn]

theorem readArguments (h : s.SameReadable s') (argv : Address) (count index : Nat) :
    s'.readArguments argv count index = s.readArguments argv count index := by
  induction count generalizing index with
  | zero => rfl
  | succ count ih =>
    unfold AddressSpace.readArguments
    simp only [h.readWord, h.readText, ih]

/-- The same arguments of a program are read from both. -/
theorem programArguments (h : s.SameReadable s') (argc : UInt64) (argv : Address) :
    s'.programArguments argc argv = s.programArguments argc argv := by
  unfold AddressSpace.programArguments
  rw [h.readArguments]

end SameReadable

/-! ## What the kernel stores -/

/-- The memory with bytes stored from an address on. -/
def stored (s : AddressSpace) (a : Address) (data : List UInt8) : AddressSpace := ⟨storePages s.pages a.toNat data⟩

/-- Storing no bytes changes nothing. -/
@[simp] theorem stored_nil (s : AddressSpace) (a : Address) : s.stored a [] = s := by
  rw [stored, storePages_nil]

/-- Memories that look the same do so after the same bytes were stored in both. -/
theorem SameReadable.stored (h : s.SameReadable s') (a : Address) (data : List UInt8) :
    (s.stored a data).SameReadable (s'.stored a data) :=
  storePages_congr h a.toNat data

/-- A memory whose pages have the rights that they had, and the same bytes where they cannot be written. -/
structure Keeps (s s' : AddressSpace) : Prop where
  /-- There are as many pages as before, with the same rights. -/
  rights : s'.pages.map Page.rights = s.pages.map Page.rights
  /-- A page that cannot be written is as it was. -/
  unwritable : ∀ (i : Nat) (page : Page), s.pages[i]? = some page → page.rights.contains .write = false → s'.pages[i]? = some page

/-- A store in a range that can be written leaves alone what cannot. -/
theorem keeps_stored {a : Address} {data : List UInt8} (h : s.check a data.length .write = .ok ()) : s.Keeps (s.stored a data) := by
  refine ⟨map_rights_storePages s.pages a.toNat data, fun i page hp hw => ?_⟩
  rcases Nat.eq_zero_or_pos data.length with hd | hd
  · rw [List.eq_nil_of_length_eq_zero hd, stored_nil]
    exact hp
  refine (getElem?_storePages s.pages a.toNat data i ?_).trans hp
  -- Otherwise some byte of the range would lie in the page, which could then be written.
  by_contra hmeets
  rw [Nat.succ_mul, pageSize] at hmeets
  obtain ⟨j, hj, he⟩ : ∃ j < data.length, (a.toNat + j) / pageSize = i := by
    refine ⟨i * 1024 - a.toNat, by omega, ?_⟩
    rw [pageSize]
    omega
  obtain ⟨rights, hr, hwrite⟩ := ((check_eq_ok_iff hd).mp h).2 j hj
  rw [he] at hr
  obtain ⟨p, hp', rfl⟩ := rights?_eq_some_iff.mp hr
  cases hp.symm.trans hp'
  exact Bool.false_ne_true (hw.symm.trans hwrite)

end AddressSpace

end Nucleus
