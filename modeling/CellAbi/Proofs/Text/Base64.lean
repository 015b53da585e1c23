import CellAbi.Text.Base64
import CellAbi.Text.Blank

/-!
# Base64 round trip

    decodeChars (trim (encodeChars bytes)) = .ok bytes               (`decodeChars_trim_encodeChars`)
-/

namespace CellAbi.Text

theorem dropWhile_eq_self {α : Type} {p : α → Bool} {l : List α} (h : ∀ a ∈ l, p a = false) :
    l.dropWhile p = l := by
  cases l with
  | nil => rfl
  | cons a l => rw [List.dropWhile_cons_of_neg]; simp [h a List.mem_cons_self]

/-- Trimming leaves a text without blanks as it is. -/
theorem trim_eq_self {text : List Char} (h : ∀ c ∈ text, isBlank c = false) : trim text = text := by
  have hback : ∀ c ∈ text.reverse, isBlank c = false := fun c hc => h c (List.mem_reverse.1 hc)
  rw [trim, dropWhile_eq_self h, dropWhile_eq_self hback, List.reverse_reverse]

namespace Base64

/-! ## Symbols -/

/-- The byte of the symbol of value `v`. -/
def symbolByte (v : Nat) : UInt8 := UInt8.ofNat (symbol v).toNat

theorem symbol_all : ∀ v, v < 64 → String.utf8EncodeChar (symbol v) = [symbolByte v] ∧
    symbolValue? (symbolByte v) = some v ∧ symbolByte v ≠ padding ∧ isBlank (symbol v) = false := by
  decide +kernel

theorem utf8_padding : String.utf8EncodeChar '=' = [padding] := rfl

theorem utf8_symbol {v : Nat} (h : v < 64) : String.utf8EncodeChar (symbol v) = [symbolByte v] :=
  (symbol_all v h).1

theorem symbolValue?_symbolByte {v : Nat} (h : v < 64) : symbolValue? (symbolByte v) = some v :=
  (symbol_all v h).2.1

theorem symbolByte_ne {v : Nat} (h : v < 64) : symbolByte v ≠ padding := (symbol_all v h).2.2.1

/-! ## Groups -/

/-- The bytes of the text. -/
def encodeBytes (bytes : List UInt8) : List UInt8 :=
  (encodeChars bytes).flatMap String.utf8EncodeChar

theorem encodeBytes_one (a : UInt8) : encodeBytes [a] =
    [symbolByte (a.toNat * 16 / 64), symbolByte (a.toNat * 16 % 64), padding, padding] := by
  have ha : a.toNat < 256 := a.toNat_lt
  simp [encodeBytes, encodeChars, utf8_padding, utf8_symbol (v := a.toNat * 16 / 64) (by omega),
    utf8_symbol (v := a.toNat * 16 % 64) (by omega)]

theorem encodeBytes_two (a b : UInt8) : encodeBytes [a, b] =
    [symbolByte ((a.toNat * 256 + b.toNat) * 4 / 4096),
      symbolByte ((a.toNat * 256 + b.toNat) * 4 / 64 % 64),
      symbolByte ((a.toNat * 256 + b.toNat) * 4 % 64), padding] := by
  have ha : a.toNat < 256 := a.toNat_lt
  have hb : b.toNat < 256 := b.toNat_lt
  simp [encodeBytes, encodeChars, utf8_padding,
    utf8_symbol (v := (a.toNat * 256 + b.toNat) * 4 / 4096) (by omega),
    utf8_symbol (v := (a.toNat * 256 + b.toNat) * 4 / 64 % 64) (by omega),
    utf8_symbol (v := (a.toNat * 256 + b.toNat) * 4 % 64) (by omega)]

theorem encodeBytes_group (a b c : UInt8) (rest : List UInt8) :
    encodeBytes (a :: b :: c :: rest) =
      symbolByte (((a.toNat * 256 + b.toNat) * 256 + c.toNat) / 262144) ::
        symbolByte (((a.toNat * 256 + b.toNat) * 256 + c.toNat) / 4096 % 64) ::
          symbolByte (((a.toNat * 256 + b.toNat) * 256 + c.toNat) / 64 % 64) ::
            symbolByte (((a.toNat * 256 + b.toNat) * 256 + c.toNat) % 64) :: encodeBytes rest := by
  have ha : a.toNat < 256 := a.toNat_lt
  have hb : b.toNat < 256 := b.toNat_lt
  have hc : c.toNat < 256 := c.toNat_lt
  generalize hn : (a.toNat * 256 + b.toNat) * 256 + c.toNat = n
  simp [encodeBytes, encodeChars, hn, utf8_symbol (v := n / 262144) (by omega),
    utf8_symbol (v := n / 4096 % 64) (by omega), utf8_symbol (v := n / 64 % 64) (by omega),
    utf8_symbol (v := n % 64) (by omega)]

/-- Whole groups, the last one padded. -/
theorem length_encodeBytes (bytes : List UInt8) : (encodeBytes bytes).length % 4 = 0 := by
  induction bytes using encodeChars.induct with
  | case1 => rfl
  | case2 a => simp [encodeBytes_one]
  | case3 a b => simp [encodeBytes_two]
  | case4 a b c rest ih =>
    rw [encodeBytes_group]
    simp only [List.length_cons]
    omega

theorem encodeBytes_ne_nil {bytes : List UInt8} (h : bytes ≠ []) : encodeBytes bytes ≠ [] := by
  match bytes with
  | [a] => rw [encodeBytes_one]; exact List.cons_ne_nil _ _
  | [a, b] => rw [encodeBytes_two]; exact List.cons_ne_nil _ _
  | a :: b :: c :: rest => rw [encodeBytes_group]; exact List.cons_ne_nil _ _

/-! ## Reading groups -/

section
variable {offset a b c d : Nat}

theorem decodeLast_two (ha : a < 64) (hb : b < 64) (hpad : b % 16 = 0) :
    decodeLast offset [symbolByte a, symbolByte b, padding, padding] =
      .ok [UInt8.ofNat ((a * 64 + b) / 16)] := by
  simp [decodeLast, lastGroup, symbolByte_ne ha, symbolByte_ne hb, symbolValue?_symbolByte ha,
    symbolValue?_symbolByte hb, hpad, bind, Except.bind, pure, Except.pure]

theorem decodeLast_three (ha : a < 64) (hb : b < 64) (hc : c < 64) (hpad : c % 4 = 0) :
    decodeLast offset [symbolByte a, symbolByte b, symbolByte c, padding] =
      .ok [UInt8.ofNat (((a * 64 + b) * 64 + c) / 4 / 256),
        UInt8.ofNat (((a * 64 + b) * 64 + c) / 4)] := by
  simp [decodeLast, lastGroup, symbolByte_ne ha, symbolByte_ne hb, symbolByte_ne hc,
    symbolValue?_symbolByte ha, symbolValue?_symbolByte hb, symbolValue?_symbolByte hc, hpad, bind,
    Except.bind, pure, Except.pure]

theorem decodeLast_four (ha : a < 64) (hb : b < 64) (hc : c < 64) (hd : d < 64) :
    decodeLast offset [symbolByte a, symbolByte b, symbolByte c, symbolByte d] =
      .ok [UInt8.ofNat ((((a * 64 + b) * 64 + c) * 64 + d) / 65536),
        UInt8.ofNat ((((a * 64 + b) * 64 + c) * 64 + d) / 256),
        UInt8.ofNat (((a * 64 + b) * 64 + c) * 64 + d)] := by
  simp [decodeLast, lastGroup, symbolByte_ne ha, symbolByte_ne hb, symbolByte_ne hc,
    symbolByte_ne hd, symbolValue?_symbolByte ha, symbolValue?_symbolByte hb,
    symbolValue?_symbolByte hc, symbolValue?_symbolByte hd, bind, Except.bind, pure, Except.pure]

end

theorem ofNat_eq {n : Nat} {b : UInt8} (h : n % 256 = b.toNat) : UInt8.ofNat n = b := by
  apply UInt8.toNat_inj.1
  rw [UInt8.toNat_ofNat']
  exact h

theorem valueAt_symbolByte {offset v : Nat} (h : v < 64) : valueAt offset (symbolByte v) = .ok v := by
  rw [valueAt, symbolValue?_symbolByte h]

theorem decodeGroups_encodeBytes (bytes : List UInt8) :
    ∀ offset, decodeGroups offset (encodeBytes bytes) = .ok bytes := by
  induction bytes using encodeChars.induct with
  | case1 => exact fun _ => rfl
  | case2 a =>
    intro offset
    have ha : a.toNat < 256 := a.toNat_lt
    rw [encodeBytes_one]
    show decodeLast offset _ = _
    rw [decodeLast_two (by omega) (by omega) (by omega), ofNat_eq (b := a) (by omega)]
  | case3 a b =>
    intro offset
    have ha : a.toNat < 256 := a.toNat_lt
    have hb : b.toNat < 256 := b.toNat_lt
    rw [encodeBytes_two]
    show decodeLast offset _ = _
    rw [decodeLast_three (by omega) (by omega) (by omega) (by omega), ofNat_eq (b := a) (by omega),
      ofNat_eq (b := b) (by omega)]
  | case4 a b c rest ih =>
    intro offset
    have ha : a.toNat < 256 := a.toNat_lt
    have hb : b.toNat < 256 := b.toNat_lt
    have hc : c.toNat < 256 := c.toNat_lt
    rw [encodeBytes_group]
    generalize hn : (a.toNat * 256 + b.toNat) * 256 + c.toNat = n
    have h0 : n / 262144 < 64 := by omega
    have h1 : n / 4096 % 64 < 64 := by omega
    have h2 : n / 64 % 64 < 64 := by omega
    have h3 : n % 64 < 64 := by omega
    have hjoin : ((n / 262144 * 64 + n / 4096 % 64) * 64 + n / 64 % 64) * 64 + n % 64 = n := by
      omega
    have hbytes : [UInt8.ofNat (n / 65536), UInt8.ofNat (n / 256), UInt8.ofNat n] = [a, b, c] := by
      rw [ofNat_eq (b := a) (by omega), ofNat_eq (b := b) (by omega), ofNat_eq (b := c) (by omega)]
    simp only [List.cons.injEq, and_true] at hbytes
    cases hrest : encodeBytes rest with
    | nil =>
      -- the group is the last one
      have hnil : rest = [] := Decidable.not_not.1 fun h => encodeBytes_ne_nil h hrest
      show decodeLast offset _ = _
      rw [decodeLast_four h0 h1 h2 h3, hjoin, hbytes.1, hbytes.2.1, hbytes.2.2, hnil]
    | cons e es =>
      have hih := ih (offset + 4)
      rw [hrest] at hih
      simp only [decodeGroups, valueAt_symbolByte h0, valueAt_symbolByte h1, valueAt_symbolByte h2,
        valueAt_symbolByte h3, hih, hjoin, hbytes, bind, Except.bind, pure, Except.pure]

/-! ## Reading texts -/

theorem decodeChars_encodeChars (bytes : List UInt8) :
    decodeChars (encodeChars bytes) = .ok bytes := by
  have hlen := length_encodeBytes bytes
  rw [decodeChars, ← encodeBytes, decodeBytes]
  cases hlast : (encodeBytes bytes).getLast? with
  | none =>
    have hnil : bytes = [] :=
      Decidable.not_not.1 fun h => encodeBytes_ne_nil h (List.getLast?_eq_none_iff.1 hlast)
    rw [hnil]
  | some b =>
    show (if _ ∧ _ then _ else _) = _
    rw [if_neg (by omega), decodeGroups_encodeBytes]

theorem not_isBlank_of_mem_encodeChars (bytes : List UInt8) :
    ∀ c ∈ encodeChars bytes, isBlank c = false := by
  have hsymbol : ∀ v, v < 64 → isBlank (symbol v) = false := fun v h => (symbol_all v h).2.2.2
  have hpad : isBlank '=' = false := by decide
  induction bytes using encodeChars.induct with
  | case1 => exact nofun
  | case2 a =>
    have ha : a.toNat < 256 := a.toNat_lt
    simp only [encodeChars, List.forall_mem_cons, List.not_mem_nil, false_implies, implies_true,
      and_true]
    exact ⟨hsymbol _ (by omega), hsymbol _ (by omega), hpad, hpad⟩
  | case3 a b =>
    have ha : a.toNat < 256 := a.toNat_lt
    have hb : b.toNat < 256 := b.toNat_lt
    simp only [encodeChars, List.forall_mem_cons, List.not_mem_nil, false_implies, implies_true,
      and_true]
    exact ⟨hsymbol _ (by omega), hsymbol _ (by omega), hsymbol _ (by omega), hpad⟩
  | case4 a b c rest ih =>
    have ha : a.toNat < 256 := a.toNat_lt
    have hb : b.toNat < 256 := b.toNat_lt
    have hc : c.toNat < 256 := c.toNat_lt
    simp only [encodeChars, List.forall_mem_cons]
    exact ⟨hsymbol _ (by omega), hsymbol _ (by omega), hsymbol _ (by omega),
      hsymbol _ (by omega), ih⟩

/-- A written text is read, with or without a look at blanks around it. -/
theorem decodeChars_trim_encodeChars (bytes : List UInt8) :
    decodeChars (trim (encodeChars bytes)) = .ok bytes := by
  rw [trim_eq_self (not_isBlank_of_mem_encodeChars bytes), decodeChars_encodeChars]

end Base64

end CellAbi.Text
