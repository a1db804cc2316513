import EfiLoader.Numeral
import EfiLoader.Proofs.Bytes

/-!
Facts about numerals: what their digits are, how long they get, that hexadecimal ones can be read
back (`ofHex?_hex`, `ofHex?_zeroHex`), and that different numbers have different numerals.
-/

namespace EfiLoader.Numeral

/-- What holds of every digit of a base holds of a number's digits. -/
theorem forall_mem_toDigits {P : Char → Prop} {base : Nat} (many : 1 < base)
    (digits : ∀ d < base, P (Nat.digitChar d)) (n : Nat) : ∀ c ∈ Nat.toDigits base n, P c := by
  induction n using Nat.strongRecOn with
  | ind n ih =>
    rw [Nat.toDigits_eq_if many]
    split
    · rename_i small
      exact List.forall_mem_singleton.mpr (digits n small)
    · refine List.forall_mem_append.mpr ⟨ih (n / base) (Nat.div_lt_self (by omega) many), ?_⟩
      exact List.forall_mem_singleton.mpr (digits (n % base) (Nat.mod_lt n (by omega)))

theorem forall_mem_leftpad {P : Char → Prop} {digits : List Char} (zero : P '0')
    (all : ∀ c ∈ digits, P c) (width : Nat) : ∀ c ∈ digits.leftpad width '0', P c :=
  List.forall_mem_append.mpr
    ⟨fun _ member => List.eq_of_mem_replicate member ▸ zero, all⟩

theorem utf8Size_digitChar (n : Nat) : (Nat.digitChar n).utf8Size = 1 := by
  by_cases small : n < 16
  · have digits : ∀ n < 16, (Nat.digitChar n).utf8Size = 1 := by decide
    exact digits n small
  · rw [Nat.digitChar_eq_star.mpr (by omega)]
    rfl

theorem utf8Size_of_mem_toDigits {base n : Nat} (many : 1 < base) :
    ∀ c ∈ Nat.toDigits base n, c.utf8Size = 1 :=
  forall_mem_toDigits many (fun d _ => utf8Size_digitChar d) n

theorem length_decimal_le {n width : Nat} (some : 0 < width) (small : n < Nat.pow 10 width) :
    (Bytes.utf8 (decimal n)).length ≤ width := by
  rw [decimal, Bytes.length_utf8_ofList (utf8Size_of_mem_toDigits (by decide))]
  exact (Nat.length_toDigits_le_iff (by decide) some).mpr small

theorem length_hex_le {n width : Nat} (some : 0 < width) (small : n < Nat.pow 16 width) :
    (Bytes.utf8 (hex n)).length ≤ width := by
  rw [hex, Bytes.length_utf8_ofList (utf8Size_of_mem_toDigits (by decide))]
  exact (Nat.length_toDigits_le_iff (by decide) some).mpr small

theorem length_zeroHex_le {n width least : Nat} (wide : least ≤ width) (some : 0 < width)
    (small : n < Nat.pow 16 width) : (Bytes.utf8 (zeroHex least n)).length ≤ width := by
  have digits := (Nat.length_toDigits_le_iff (by decide : 1 < 16) some).mpr small
  have narrow : ∀ c ∈ (Nat.toDigits 16 n).leftpad least '0', c.utf8Size = 1 :=
    forall_mem_leftpad (P := (·.utf8Size = 1)) rfl (utf8Size_of_mem_toDigits (by decide)) least
  rw [zeroHex, Bytes.length_utf8_ofList narrow, List.length_leftpad]
  omega

theorem blank_not_mem_hex (n : Nat) : ' ' ∉ (hex n).toList := by
  have digits : ∀ c ∈ Nat.toDigits 16 n, c ≠ ' ' := forall_mem_toDigits (by decide) (by decide) n
  rw [hex, String.toList_ofList]
  exact fun inside => digits _ inside rfl

section Reading

/-- The value of a lower-case hexadecimal digit. -/
def hexDigit? (c : Char) : Option Nat := "0123456789abcdef".toList.idxOf? c

/-- The number with these hexadecimal digits, the most significant first. -/
def ofHex? (digits : List Char) : Option Nat :=
  digits.foldlM (fun n c => (hexDigit? c).map (16 * n + ·)) 0

theorem hexDigit?_digitChar : ∀ d < 16, hexDigit? (Nat.digitChar d) = some d := by decide

theorem ofHex?_toDigits (n : Nat) : ofHex? (Nat.toDigits 16 n) = some n := by
  induction n using Nat.strongRecOn with
  | ind n ih =>
    rw [Nat.toDigits_eq_if (by decide)]
    split
    · rename_i small
      simp [ofHex?, hexDigit?_digitChar n small]
    · have front := ih (n / 16) (by omega)
      rw [ofHex?] at front
      rw [ofHex?, List.foldlM_append, front]
      simp [hexDigit?_digitChar (n % 16) (by omega), Nat.div_add_mod]

theorem ofHex?_leftpad (width : Nat) (digits : List Char) :
    ofHex? (digits.leftpad width '0') = ofHex? digits := by
  rw [List.leftpad]
  induction width - digits.length with
  | zero => rfl
  | succ zeros ih =>
    rw [List.replicate_succ, List.cons_append, ofHex?, List.foldlM_cons]
    exact ih

theorem ofHex?_hex (n : Nat) : ofHex? (hex n).toList = some n := by
  rw [hex, String.toList_ofList, ofHex?_toDigits]

theorem ofHex?_zeroHex (width n : Nat) : ofHex? (zeroHex width n).toList = some n := by
  rw [zeroHex, String.toList_ofList, ofHex?_leftpad, ofHex?_toDigits]

theorem decimal_inj {m n : Nat} : decimal m = decimal n ↔ m = n := by
  refine ⟨fun same => ?_, congrArg decimal⟩
  have digits : Nat.toDigits 10 m = Nat.toDigits 10 n := String.ofList_inj.mp same
  have read := Nat.ofDigitChars_toDigits (n := m) (by decide : 1 < 10) (by decide)
  rw [digits, Nat.ofDigitChars_toDigits (by decide) (by decide)] at read
  exact read.symm

theorem hex_inj {m n : Nat} : hex m = hex n ↔ m = n := by
  refine ⟨fun same => ?_, congrArg hex⟩
  have read := ofHex?_hex m
  rw [same, ofHex?_hex] at read
  exact (Option.some.inj read).symm

end Reading

end EfiLoader.Numeral
