import Chip8.Proofs.Stack

/-! # The call stack as a list

Whatever is asked of a call stack, it answers as a list of addresses with room
for sixteen does: addresses are saved in front, and the first one is taken back.
Requests that fail leave either as it was. The slots carry nothing beyond the
list, so to take back what was just saved restores the stack to the last slot.
-/

namespace Chip8.CallStack

inductive Request where
  | push (address : Int)
  | pop
  deriving DecidableEq, Repr

/-- An address that is taken back, nothing for one that is saved, or the fault of the request. -/
abbrev Answer := Except Fault (Option Int)

def serve (s : CallStack) : Request → Answer × CallStack
  | .push a =>
    match s.push a with
    | .ok t => (.ok none, t)
    | .error f => (.error f, s)
  | .pop =>
    match s.pop with
    | .ok (a, t) => (.ok (some a.toNat), t)
    | .error f => (.error f, s)

def serveList (l : List Int) : Request → Answer × List Int
  | .push a =>
    if l.length = 16 then (.error (.stackOverflow 16), l)
    else if a < 0 ∨ 0xFFF < a then (.error (.outOfBounds a 1), l)
    else (.ok none, a :: l)
  | .pop =>
    match l with
    | [] => (.error .stackUnderflow, [])
    | a :: l => (.ok (some a), l)

/-- The answers to requests one after the other, and what is left behind the last one. -/
def serveAll {σ : Type} (serve : σ → Request → Answer × σ) (s : σ) :
    List Request → List Answer × σ
  | [] => ([], s)
  | r :: rs =>
    let rest := serveAll serve (serve s r).2 rs
    ((serve s r).1 :: rest.1, rest.2)

def addresses (s : CallStack) : List Int := s.toList.map fun a => (a.toNat : Int)

/-- The stack holds the addresses of the list and nothing else. -/
structure Represents (s : CallStack) (l : List Int) : Prop where
  clean : s.Clean
  holds : s.addresses = l

variable {s t : CallStack} {l : List Int} {a : Int}

theorem Represents.depth_eq (h : s.Represents l) : s.depth = l.length := by
  rw [← h.holds, addresses, List.length_map, length_toList]

theorem represents_empty : empty.Represents [] := ⟨sound_empty.clean, rfl⟩

/-! ## Saving an address -/

theorem toNat_ofInt (ha : 0 ≤ a ∧ a ≤ 0xFFF) : ((UInt16.ofInt a).toNat : Int) = a := by
  obtain ⟨k, rfl⟩ := Int.eq_ofNat_of_zero_le ha.1
  rw [ofInt_natCast, UInt16.toNat_ofNat']
  omega

theorem push_of_full (h : s.depth = 16) : s.push a = .error (.stackOverflow 16) := by
  unfold push
  rw [dif_neg (by omega)]
  rfl

theorem push_of_outside (h : s.depth ≠ 16) (ha : a < 0 ∨ 0xFFF < a) :
    s.push a = .error (.outOfBounds a 1) := by
  have hd := s.depth_le
  have hrange : Memory.checkRange a 1 = .error (.outOfBounds a 1) := by
    unfold Memory.checkRange Memory.size
    rw [if_pos (by omega)]
  unfold push
  rw [dif_pos (by omega), hrange]
  rfl

theorem exists_push (h : s.depth ≠ 16) (ha : 0 ≤ a ∧ a ≤ 0xFFF) : ∃ t, s.push a = .ok t := by
  have hd := s.depth_le
  have hrange : Memory.checkRange a 1 = .ok () := Memory.checkRange_eq_ok_iff.mpr (by omega)
  unfold push
  rw [dif_pos (by omega), hrange]
  exact ⟨_, rfl⟩

theorem bounds_of_push (h : s.push a = .ok t) : 0 ≤ a ∧ a ≤ 0xFFF := by
  by_cases hfull : s.depth = 16
  · rw [push_of_full hfull] at h
    cases h
  · by_cases hout : a < 0 ∨ 0xFFF < a
    · rw [push_of_outside hfull hout] at h
      cases h
    · omega

theorem Clean.push_int (hs : s.Clean) (h : s.push a = .ok t) : t.Clean := by
  obtain ⟨k, rfl⟩ := Int.eq_ofNat_of_zero_le (bounds_of_push h).1
  exact hs.push h

theorem addresses_push (h : s.push a = .ok t) : t.addresses = a :: s.addresses := by
  rw [addresses, toList_push h, List.map_cons, toNat_ofInt (bounds_of_push h)]
  rfl

theorem addresses_pop {b : UInt16} (h : s.pop = .ok (b, t)) :
    s.addresses = (b.toNat : Int) :: t.addresses := by
  rw [addresses, toList_pop h, List.map_cons]
  rfl

theorem Clean.pop_push (hs : s.Clean) (h : s.push a = .ok t) :
    ∃ b : UInt16, t.pop = .ok (b, s) ∧ (b.toNat : Int) = a := by
  have hne : t.depth ≠ 0 := by
    rw [← length_toList, toList_push h, List.length_cons]
    exact Nat.succ_ne_zero _
  obtain ⟨b, u, hp⟩ := pop_of_ne_empty hne
  obtain ⟨hb, hu⟩ := List.cons.inj ((toList_push h).symm.trans (toList_pop hp))
  have hsame : u = s := ((hs.push_int h).pop hp).eq_of_toList hs hu.symm
  rw [hsame] at hp
  exact ⟨b, hp, hb ▸ toNat_ofInt (bounds_of_push h)⟩

/-! ## Requests -/

/-- One request is answered alike by a stack and the list that it represents. -/
theorem Represents.serve (h : s.Represents l) (r : Request) :
    (s.serve r).1 = (serveList l r).1 ∧ (s.serve r).2.Represents (serveList l r).2 := by
  have hd := h.depth_eq
  cases r with
  | push a =>
    by_cases hfull : l.length = 16
    · simp only [CallStack.serve, serveList, push_of_full (hd.trans hfull), hfull, if_true]
      exact ⟨trivial, h⟩
    · have hroom : s.depth ≠ 16 := hd ▸ hfull
      by_cases hout : a < 0 ∨ 0xFFF < a
      · simp only [CallStack.serve, serveList, push_of_outside hroom hout, hfull, hout, if_true,
          if_false]
        exact ⟨trivial, h⟩
      · obtain ⟨t, ht⟩ := exists_push (a := a) hroom (by omega)
        simp only [CallStack.serve, serveList, ht, hfull, hout, if_false]
        exact ⟨trivial, h.clean.push_int ht, by rw [addresses_push ht, h.holds]⟩
  | pop =>
    cases l with
    | nil =>
      simp only [CallStack.serve, serveList, pop_of_empty hd]
      exact ⟨trivial, h⟩
    | cons a l =>
      obtain ⟨b, t, hp⟩ := pop_of_ne_empty (s := s) (by simp [hd])
      obtain ⟨rfl, hl⟩ := List.cons.inj ((addresses_pop hp).symm.trans h.holds)
      simp only [CallStack.serve, serveList, hp]
      exact ⟨trivial, h.clean.pop hp, hl⟩

theorem Represents.serveAll (h : s.Represents l) (rs : List Request) :
    (CallStack.serveAll CallStack.serve s rs).1 = (CallStack.serveAll serveList l rs).1 ∧
      (CallStack.serveAll CallStack.serve s rs).2.Represents
        (CallStack.serveAll serveList l rs).2 := by
  induction rs generalizing s l with
  | nil => exact ⟨rfl, h⟩
  | cons r rs ih =>
    obtain ⟨hanswer, hnext⟩ := h.serve r
    obtain ⟨hanswers, hlast⟩ := ih hnext
    exact ⟨List.cons_eq_cons.mpr ⟨hanswer, hanswers⟩, hlast⟩

/-- A call stack is a list of addresses with room for sixteen. Requests from the start on have the
same answers from both, and leave as many addresses, which are the same ones; and wherever they
lead, to save an address and take it back gives that address and the very stack from before. -/
theorem stack_refines_list (rs : List Request) :
    let s := (serveAll serve empty rs).2
    let l := (serveAll serveList [] rs).2
    (serveAll serve empty rs).1 = (serveAll serveList [] rs).1 ∧
      s.addresses = l ∧ s.depth = l.length ∧
      ∀ a t, s.push a = .ok t → ∃ b : UInt16, t.pop = .ok (b, s) ∧ (b.toNat : Int) = a := by
  obtain ⟨hanswers, hlast⟩ := represents_empty.serveAll rs
  exact ⟨hanswers, hlast.holds, hlast.depth_eq, fun a t h => hlast.clean.pop_push h⟩

theorem stack_refines_list_full :
    let rs := List.replicate 16 (.push 0xFFF) ++ [.push (-1), .pop, .push 0x1000]
    let s := (serveAll serve empty rs).2
    (serveAll serve empty rs).1.drop 16 =
        [.error (.stackOverflow 16), .ok (some 0xFFF), .error (.outOfBounds 0x1000 1)] ∧
      s.depth = 15 ∧
      ∃ t, s.push 0x202 = .ok t ∧ ∃ b : UInt16, t.pop = .ok (b, s) ∧ (b.toNat : Int) = 0x202 := by
  intro rs s
  obtain ⟨hanswers, -, hdepth, hback⟩ := stack_refines_list rs
  have hroom : s.depth = 15 := hdepth
  obtain ⟨t, ht⟩ := exists_push (s := s) (a := 0x202) (by omega) (by omega)
  exact ⟨by rw [hanswers]; rfl, hroom, t, ht, hback _ t ht⟩

end Chip8.CallStack
