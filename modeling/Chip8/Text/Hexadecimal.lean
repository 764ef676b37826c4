/-! # Hexadecimal text

Upper-case digits without a base mark. A minimum width is filled with zeros on
the left and counts the sign of a negative number.
-/

namespace Chip8.Text

def hexDigit (d : Nat) : Char := Char.ofNat (if d < 10 then 48 + d else 55 + d)

theorem hexDigit_inj : ∀ a < 16, ∀ b < 16, hexDigit a = hexDigit b → a = b := by decide

def hexDigits (n : Nat) : List Char :=
  if n < 16 then [hexDigit n] else hexDigits (n / 16) ++ [hexDigit (n % 16)]

def hex (width n : Nat) : String :=
  String.ofList ((hexDigits n).leftpad width '0')

variable {width n m : Nat} {c : Char}

theorem hexDigits_of_lt (h : n < 16) : hexDigits n = [hexDigit n] := by
  rw [hexDigits, if_pos h]

theorem hexDigits_of_ge (h : 16 ≤ n) :
    hexDigits n = hexDigits (n / 16) ++ [hexDigit (n % 16)] := by
  rw [hexDigits, if_neg (Nat.not_lt.mpr h)]

theorem length_hexDigits_pos (n : Nat) : 0 < (hexDigits n).length := by
  rw [hexDigits]
  split <;> simp

theorem toList_hex_digits (n : Nat) : (hex 1 n).toList = hexDigits n := by
  have hpos := length_hexDigits_pos n
  rw [hex, String.toList_ofList, List.leftpad, show 1 - (hexDigits n).length = 0 by omega]
  rfl

theorem toList_hex_one (h : n < 16) : (hex 1 n).toList = [hexDigit n] := by
  rw [toList_hex_digits, hexDigits_of_lt h]

theorem toList_hex_succ (width n : Nat) {d : Nat} (hd : d < 16) :
    (hex (width + 2) (16 * n + d)).toList = (hex (width + 1) n).toList ++ [hexDigit d] := by
  simp only [hex, String.toList_ofList]
  by_cases hn : n = 0
  · subst hn
    rw [Nat.mul_zero, Nat.zero_add, hexDigits_of_lt hd, hexDigits_of_lt (by decide)]
    exact congrArg (· ++ [hexDigit d]) List.replicate_succ'
  · have hdigits : hexDigits (16 * n + d) = hexDigits n ++ [hexDigit d] := by
      rw [hexDigits_of_ge (by omega), show (16 * n + d) / 16 = n by omega,
        show (16 * n + d) % 16 = d by omega]
    have hpad : width + 2 - (hexDigits n ++ [hexDigit d]).length =
        width + 1 - (hexDigits n).length := by
      rw [List.length_append, List.length_singleton]
      omega
    rw [hdigits, List.leftpad, List.leftpad, hpad, List.append_assoc]

/-! ## Digits -/

theorem exists_of_mem_hexDigits (h : c ∈ hexDigits n) : ∃ d < 16, c = hexDigit d := by
  fun_induction hexDigits n with
  | case1 n hn => exact ⟨n, hn, List.mem_singleton.mp h⟩
  | case2 n hn ih =>
    rcases List.mem_append.mp h with h | h
    · exact ih h
    · exact ⟨n % 16, Nat.mod_lt n (by decide), List.mem_singleton.mp h⟩

theorem exists_of_mem_hex (h : c ∈ (hex width n).toList) : ∃ d < 16, c = hexDigit d := by
  rw [hex, String.toList_ofList, List.leftpad, List.mem_append] at h
  rcases h with h | h
  · exact ⟨0, by decide, List.eq_of_mem_replicate h⟩
  · exact exists_of_mem_hexDigits h

/-! ## Different numbers -/

theorem eq_of_digits {leading leading' : List Char}
    (h : leading ++ [hexDigit (n % 16)] = leading' ++ [hexDigit (m % 16)])
    (hleading : leading = leading' → n / 16 = m / 16) : n = m := by
  obtain ⟨hlist, hlast⟩ := List.append_inj' h rfl
  have hdiv := hleading hlist
  have hmod := hexDigit_inj _ (Nat.mod_lt n (by decide)) _ (Nat.mod_lt m (by decide))
    (List.singleton_inj.mp hlast)
  omega

theorem length_hexDigits_eq_one_iff : (hexDigits n).length = 1 ↔ n < 16 := by
  rcases Nat.lt_or_ge n 16 with hn | hn
  · simp [hexDigits_of_lt hn, hn]
  · have hpos := length_hexDigits_pos (n / 16)
    rw [hexDigits_of_ge hn, List.length_append, List.length_singleton]
    omega

theorem hexDigits_injective (h : hexDigits n = hexDigits m) : n = m := by
  induction n using Nat.strongRecOn generalizing m with
  | ind n ih =>
    have hshort : n < 16 ↔ m < 16 := by
      rw [← length_hexDigits_eq_one_iff, h, length_hexDigits_eq_one_iff]
    rcases Nat.lt_or_ge n 16 with hn | hn
    · have hm := hshort.mp hn
      rw [hexDigits_of_lt hn, hexDigits_of_lt hm] at h
      exact hexDigit_inj n hn m hm (List.singleton_inj.mp h)
    · have hm : 16 ≤ m := by omega
      rw [hexDigits_of_ge hn, hexDigits_of_ge hm] at h
      exact eq_of_digits h fun hleading => ih (n / 16) (by omega) hleading

theorem hex_injective (h : hex (width + 1) n = hex (width + 1) m) : n = m := by
  have hlist := congrArg String.toList h
  induction width generalizing n m with
  | zero =>
    rw [toList_hex_digits, toList_hex_digits] at hlist
    exact hexDigits_injective hlist
  | succ width ih =>
    rw [← Nat.div_add_mod n 16, ← Nat.div_add_mod m 16,
      toList_hex_succ _ _ (Nat.mod_lt n (by decide)),
      toList_hex_succ _ _ (Nat.mod_lt m (by decide))] at hlist
    exact eq_of_digits hlist fun hleading => ih (String.toList_inj.mp hleading) hleading

/-! ## Integers -/

/-- Upper-case hexadecimal of an integer; the sign takes one place of the width. -/
def hexInt (width : Nat) (i : Int) : String :=
  if i < 0 then "-" ++ hex (width - 1) i.natAbs else hex width i.natAbs

theorem hexInt_natCast (width n : Nat) : hexInt width n = hex width n :=
  if_neg (Int.not_lt.mpr (Int.natCast_nonneg n))

end Chip8.Text
