import SqlCodeGenerator.JobQueries

/-!
# Numbers as text

`%d` and `%u` write the digits of a number, and `strtol` reads them back.

* `digitsValue_decimal`: the digits of a number stand for it.
* `strtol_decimal`: a text that is a number is read to its end.
* `length_decimal_le`: how many digits a number has.
-/

namespace SqlCodeGenerator

theorem lit_append (text text' : String) : lit (text ++ text') = lit text ++ lit text' := by
  unfold lit
  rw [String.toList_append, List.filterMap_append]

/-- A number below ten is one digit. -/
theorem decimal_of_lt {n : Nat} (h : n < 10) : ∃ c : CChar, decimal n = [c] ∧
    isDigit c = true ∧ c.val.toNat = 48 + n := by
  have hdigits : ∀ d : Fin 10, ∃ c ∈ decimal d.val, decimal d.val = [c] ∧
      isDigit c = true ∧ c.val.toNat = 48 + d.val := by decide
  obtain ⟨c, -, hc⟩ := hdigits ⟨n, h⟩
  exact ⟨c, hc⟩

/-- The last digit of a larger number. -/
theorem decimal_of_le {n : Nat} (h : 10 ≤ n) :
    decimal n = decimal (n / 10) ++ decimal (n % 10) := by
  have hdigits := Nat.toDigits_of_base_le (by decide : 1 < 10) h
  have hlast := Nat.toDigits_of_lt_base (Nat.mod_lt n (by decide : 0 < 10))
  rw [← hlast] at hdigits
  unfold decimal
  rw [← lit_append]
  congr 1
  simp only [Nat.toString_eq_ofList_toDigits, hdigits, String.ofList_append]

theorem digitsValue_append_singleton (digits : CString) (c : CChar) :
    digitsValue (digits ++ [c]) = digitsValue digits * 10 + (c.val.toNat - 48) := by
  unfold digitsValue
  rw [List.foldl_append]
  rfl

/-- The digits of a number stand for it. -/
theorem digitsValue_decimal (n : Nat) : digitsValue (decimal n) = n := by
  induction n using Nat.strongRecOn with
  | _ n ih =>
      by_cases hn : n < 10
      · obtain ⟨c, hc, -, hvalue⟩ := decimal_of_lt hn
        rw [hc, ← List.nil_append [c], digitsValue_append_singleton, hvalue]
        simp [digitsValue]
      · obtain ⟨c, hc, -, hvalue⟩ := decimal_of_lt (Nat.mod_lt n (by decide : 0 < 10))
        rw [decimal_of_le (Nat.le_of_not_lt hn), hc, digitsValue_append_singleton,
          ih (n / 10) (by omega), hvalue]
        omega

theorem decimal_injective {n n' : Nat} (h : decimal n = decimal n') : n = n' := by
  rw [← digitsValue_decimal n, h, digitsValue_decimal]

theorem isDigit_of_mem_decimal {n : Nat} : ∀ c ∈ decimal n, isDigit c = true := by
  induction n using Nat.strongRecOn with
  | _ n ih =>
      intro c hmem
      by_cases hn : n < 10
      · obtain ⟨d, hd, hdigit, -⟩ := decimal_of_lt hn
        rw [hd] at hmem
        rwa [List.mem_singleton.mp hmem]
      · rw [decimal_of_le (Nat.le_of_not_lt hn)] at hmem
        rcases List.mem_append.mp hmem with hfront | hlast
        · exact ih (n / 10) (by omega) c hfront
        · exact ih (n % 10) (by omega) c hlast

theorem decimal_ne_nil (n : Nat) : decimal n ≠ [] := by
  by_cases hn : n < 10
  · obtain ⟨c, hc, -⟩ := decimal_of_lt hn
    rw [hc]
    exact List.cons_ne_nil c []
  · obtain ⟨c, hc, -⟩ := decimal_of_lt (Nat.mod_lt n (by decide : 0 < 10))
    rw [decimal_of_le (Nat.le_of_not_lt hn), hc]
    exact List.append_ne_nil_of_right_ne_nil _ (List.cons_ne_nil c [])

/-- How many digits a number has. -/
theorem length_decimal_le {n k : Nat} (hk : 0 < k) (h : n < 10 ^ k) : (decimal n).length ≤ k := by
  induction k generalizing n with
  | zero => cases hk
  | succ k ih =>
      by_cases hn : n < 10
      · obtain ⟨c, hc, -⟩ := decimal_of_lt hn
        rw [hc, List.length_singleton]
        omega
      · obtain ⟨c, hc, -⟩ := decimal_of_lt (Nat.mod_lt n (by decide : 0 < 10))
        rw [Nat.pow_succ] at h
        have hpos : 0 < k := by
          rcases Nat.eq_zero_or_pos k with rfl | hpos
          · omega
          · exact hpos
        have hfront := ih hpos (show n / 10 < 10 ^ k by omega)
        rw [decimal_of_le (Nat.le_of_not_lt hn), hc, List.length_append, List.length_singleton]
        omega

/-- A digit is neither white space nor a sign. -/
theorem digit_not_skipped {c : CChar} (h : isDigit c = true) :
    isSpace c = false ∧ c ≠ chr '-' ∧ c ≠ chr '+' := by
  simp only [isDigit, Bool.and_eq_true, decide_eq_true_eq, UInt8.le_iff_toNat_le] at h
  have hlow : 48 ≤ c.val.toNat := h.1
  refine ⟨?_, ?_, ?_⟩
  · have hspace : c.val.toNat ≠ 32 ∧ ¬ c.val.toNat ≤ 13 := by omega
    simp only [isSpace, Bool.or_eq_false_iff, Bool.and_eq_false_iff, beq_eq_false_iff_ne,
      decide_eq_false_iff_not, UInt8.le_iff_toNat_le]
    refine ⟨fun heq => hspace.1 (congrArg UInt8.toNat heq), Or.inr hspace.2⟩
  · rintro rfl
    exact absurd hlow (by decide)
  · rintro rfl
    exact absurd hlow (by decide)

/-- `strtol` reads a number to the end of the text. -/
theorem strtol_decimal (n : Nat) : strtol (decimal n) = some ((n : Int), []) := by
  have hall := fun c hc => isDigit_of_mem_decimal (n := n) c hc
  have htake : (decimal n).takeWhile isDigit = decimal n := List.takeWhile_eq_self_iff.mpr hall
  have hdrop : (decimal n).dropWhile isDigit = [] := List.dropWhile_eq_nil_iff.mpr hall
  have hvalue := digitsValue_decimal n
  cases htext : decimal n with
  | nil => exact absurd htext (decimal_ne_nil n)
  | cons c rest =>
      rw [htext] at htake hdrop hvalue hall
      obtain ⟨hspace, hminus, hplus⟩ := digit_not_skipped (hall c List.mem_cons_self)
      have hskip : skipWs (c :: rest) = c :: rest := by
        rw [skipWs, List.dropWhile_cons_of_neg (by simp [hspace])]
      unfold strtol
      simp only [hskip, if_neg hminus, if_neg hplus, htake, hdrop, hvalue, List.cons_ne_nil,
        Bool.false_eq_true, if_false]

theorem decimalInt_negSucc (n : Nat) :
    decimalInt (Int.negSucc n) = chr '-' :: decimal (n + 1) := by
  have htext : toString (Int.negSucc n) = "-" ++ toString (n + 1) := rfl
  rw [decimalInt, htext, lit_append]
  rfl

/-- A number with its sign is read to its end. -/
theorem strtol_decimalInt (n : Int) : strtol (decimalInt n) = some (n, []) := by
  cases n with
  | ofNat n => exact strtol_decimal n
  | negSucc n =>
      have hall := fun c hc => isDigit_of_mem_decimal (n := n + 1) c hc
      have htake : (decimal (n + 1)).takeWhile isDigit = decimal (n + 1) :=
        List.takeWhile_eq_self_iff.mpr hall
      have hdrop : (decimal (n + 1)).dropWhile isDigit = [] := List.dropWhile_eq_nil_iff.mpr hall
      have hskip : skipWs (chr '-' :: decimal (n + 1)) = chr '-' :: decimal (n + 1) :=
        List.dropWhile_cons_of_neg (by decide)
      rw [decimalInt_negSucc]
      unfold strtol
      simp only [hskip, if_true, htake, hdrop, digitsValue_decimal, if_neg (decimal_ne_nil (n + 1))]
      rfl

/-- A C string in a buffer ends at the NUL behind it. -/
theorem cstr_bytes (text : CString) : cstr (text.map Subtype.val) = text := by
  induction text with
  | nil => rfl
  | cons c text ih =>
      rw [List.map_cons, cstr, dif_pos c.property, ih]

end SqlCodeGenerator
