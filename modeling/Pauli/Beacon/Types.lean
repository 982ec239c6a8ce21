import Mathlib.Data.Nat.Digits
import Pauli.Basic

/-!
The JSON decoders of the Beacon API's integer fields, `Uint64Str.UnmarshalJSON` and
`Int64Str.UnmarshalJSON`, with the `strconv.ParseUint` and `strconv.ParseInt` they call
(base 10, 64 bits). A JSON token is its list of bytes.
-/

namespace Pauli.Beacon.Types

open Pauli.Basic

/-! ### `strconv` -/

inductive NumErr
  | errSyntax
  | errRange
  deriving DecidableEq, Repr

structure NumError where
  func : String
  num : List UInt8
  err : NumErr
  deriving DecidableEq, Repr

/-- `lower(c)`: `c | ('x' - 'X')`. -/
def lower (c : UInt8) : UInt8 := c ||| 32

def digitVal (c : UInt8) : Option UInt8 :=
  if 48 ≤ c ∧ c ≤ 57 then some (c - 48)
  else if 97 ≤ lower c ∧ lower c ≤ 122 then some (lower c - 97 + 10)
  else none

/-- `maxUint64/10 + 1`: the smallest `n` for which `n * 10` overflows. -/
def cutoff : UInt64 := maxUint64 / 10 + 1

/-- The digit loop of `ParseUint(s0, 10, 64)`, from the value `n` read so far. Go returns a value
and an error; a range error comes with `maxUint64`, a syntax error with `0`. -/
def parseUintLoop (s0 : List UInt8) : UInt64 → List UInt8 → UInt64 × Option NumError
  | n, [] => (n, none)
  | n, c :: cs =>
    match digitVal c with
    | none => (0, some ⟨"ParseUint", s0, .errSyntax⟩)
    | some d =>
      if 10 ≤ d then (0, some ⟨"ParseUint", s0, .errSyntax⟩)
      else if cutoff ≤ n then (maxUint64, some ⟨"ParseUint", s0, .errRange⟩)
      else
        let n1 := n * 10 + d.toUInt64
        if n1 < n * 10 ∨ maxUint64 < n1 then (maxUint64, some ⟨"ParseUint", s0, .errRange⟩)
        else parseUintLoop s0 n1 cs

def parseUint (s : List UInt8) : UInt64 × Option NumError :=
  if s = [] then (0, some ⟨"ParseUint", s, .errSyntax⟩) else parseUintLoop s 0 s

def splitSign : List UInt8 → Bool × List UInt8
  | 43 :: s => (false, s)
  | 45 :: s => (true, s)
  | s => (false, s)

/-- `strconv.ParseInt(s0, 10, 64)`; an `int64` is an integer in range. -/
def parseInt (s0 : List UInt8) : Int × Option NumError :=
  if s0 = [] then (0, some ⟨"ParseInt", s0, .errSyntax⟩) else
  let (neg, s) := splitSign s0
  let (un, err) := parseUint s
  if let some e := err.filter (·.err != .errRange) then
    (0, some { e with func := "ParseInt", num := s0 })
  else if !neg ∧ 2 ^ 63 ≤ un.toNat then (2 ^ 63 - 1, some ⟨"ParseInt", s0, .errRange⟩)
  else if neg ∧ 2 ^ 63 < un.toNat then (-2 ^ 63, some ⟨"ParseInt", s0, .errRange⟩)
  else
    let n := wrap64 un.toNat
    (if neg then wrap64 (-n) else n, none)

/-! ### `UnmarshalJSON` -/

/-- The quote stripping of both decoders: one pair of enclosing double quotes is removed. -/
def unquote (d : List UInt8) : List UInt8 :=
  if 2 ≤ d.length ∧ d.head? = some 34 ∧ d.getLast? = some 34 then (d.drop 1).dropLast else d

/-- `(*Uint64Str).UnmarshalJSON`: the value it stores, or the error it returns. -/
def Uint64Str.unmarshalJSON (d : List UInt8) : Except NumError UInt64 :=
  match parseUint (unquote d) with
  | (_, some e) => .error e
  | (v, none) => .ok v

/-- `(*Int64Str).UnmarshalJSON`: the value it stores, or the error it returns. -/
def Int64Str.unmarshalJSON (d : List UInt8) : Except NumError Int :=
  match parseInt (unquote d) with
  | (_, some e) => .error e
  | (v, none) => .ok v

/-! ### Decimal strings -/

def IsDigit (c : UInt8) : Prop := 48 ≤ c.toNat ∧ c.toNat ≤ 57

instance (c : UInt8) : Decidable (IsDigit c) := inferInstanceAs (Decidable (_ ∧ _))

def Digits (ds : List UInt8) : Prop := ds ≠ [] ∧ ∀ c ∈ ds, IsDigit c

def decStep (n : Nat) (c : UInt8) : Nat := 10 * n + (c.toNat - 48)

def decimalValue (ds : List UInt8) : Nat := ds.foldl decStep 0

/-- The decimal rendering of `n`, as `strconv.FormatUint` and `encoding/json` write it. -/
def decimal (n : Nat) : List UInt8 :=
  if n = 0 then [48] else (Nat.digits 10 n).reverse.map fun d => UInt8.ofNat (d + 48)

/-- The decimal rendering of an `int64`, as `strconv.FormatInt` writes it. -/
def decimalInt (i : Int) : List UInt8 :=
  if i < 0 then 45 :: decimal i.natAbs else decimal i.toNat

def quoted (d : List UInt8) : List UInt8 := 34 :: d ++ [34]

/-! ### The digit loop -/

lemma u8_le_iff {a b : UInt8} : a ≤ b ↔ a.toNat ≤ b.toNat := Iff.rfl

lemma u8_toNat_add (a b : UInt8) : (a + b).toNat = (a.toNat + b.toNat) % 256 := by
  show (a.toBitVec + b.toBitVec).toNat = _
  simp only [BitVec.toNat_add]; rfl

lemma u8_toNat_sub {a b : UInt8} (h : b.toNat ≤ a.toNat) : (a - b).toNat = a.toNat - b.toNat :=
  UInt8.toNat_sub_of_le a b h

lemma u8_toNat_toUInt64 (a : UInt8) : a.toUInt64.toNat = a.toNat := by
  simp [UInt8.toUInt64]; rfl

lemma digitVal_of_isDigit {c : UInt8} (h : IsDigit c) :
    digitVal c = some (c - 48) ∧ (c - 48).toNat = c.toNat - 48 := by
  have hs : (c - 48).toNat = c.toNat - 48 := u8_toNat_sub (by simpa using h.1)
  refine ⟨?_, hs⟩
  simp only [digitVal, u8_le_iff]
  rw [if_pos (by simpa [IsDigit] using h)]

lemma ten_le_of_digitVal {c d : UInt8} (h : ¬ IsDigit c) (hd : digitVal c = some d) : 10 ≤ d := by
  simp only [digitVal, u8_le_iff] at hd
  split_ifs at hd with h1 h2
  · exact absurd (by simpa using h1) h
  · cases hd
    have hsub : (lower c - 97).toNat = (lower c).toNat - 97 := u8_toNat_sub (by simpa using h2.1)
    have h97 : (lower c).toNat ≤ 122 := by simpa using h2.2
    have h10 : (10 : UInt8).toNat = 10 := rfl
    rw [u8_le_iff, u8_toNat_add, hsub, h10]
    omega

lemma le_foldl_decStep (m : Nat) (cs : List UInt8) : m ≤ cs.foldl decStep m := by
  induction cs generalizing m with
  | nil => exact le_rfl
  | cons c cs ih => exact le_trans (by unfold decStep; omega) (ih (decStep m c))

lemma parseUintLoop_not_digit {s0 cs : List UInt8} {c : UInt8} (n : UInt64) (h : ¬ IsDigit c) :
    parseUintLoop s0 n (c :: cs) = (0, some ⟨"ParseUint", s0, .errSyntax⟩) := by
  simp only [parseUintLoop]
  split
  · rfl
  · rename_i d hd
    rw [if_pos (ten_le_of_digitVal h hd)]

lemma parseUintLoop_digit {s0 cs : List UInt8} {c : UInt8} (n : UInt64) (h : IsDigit c) :
    parseUintLoop s0 n (c :: cs) =
      if 2 ^ 64 ≤ decStep n.toNat c then (maxUint64, some ⟨"ParseUint", s0, .errRange⟩)
      else parseUintLoop s0 (UInt64.ofNat (decStep n.toNat c)) cs := by
  obtain ⟨hd, hdv⟩ := digitVal_of_isDigit h
  have hc : c.toNat ≤ 57 := h.2
  have hd10 : ¬ (10 : UInt8) ≤ c - 48 := by
    rw [u8_le_iff, hdv, show (10 : UInt8).toNat = 10 from rfl]; omega
  have hn := u64_toNat_lt n
  simp only [parseUintLoop, hd, if_neg hd10, decStep]
  by_cases hcut : cutoff ≤ n
  · have : 1844674407370955162 ≤ n.toNat := hcut
    rw [if_pos hcut, if_pos (by omega)]
  · have hlt : n.toNat < 1844674407370955162 := not_le.mp hcut
    have hmul : (n * 10).toNat = n.toNat * 10 := by rw [u64_toNat_mul]; simp; omega
    have hdu : (c - 48).toUInt64.toNat = c.toNat - 48 := by rw [u8_toNat_toUInt64, hdv]
    have hsum : (n * 10 + (c - 48).toUInt64).toNat = (10 * n.toNat + (c.toNat - 48)) % 2 ^ 64 := by
      rw [u64_toNat_add, hmul, hdu]; ring_nf
    rw [if_neg hcut]
    by_cases hov : 2 ^ 64 ≤ 10 * n.toNat + (c.toNat - 48)
    · rw [if_pos (Or.inl (by rw [u64_lt_iff, hsum, hmul]; omega)), if_pos hov]
    · have hmax : ¬ maxUint64 < n * 10 + (c - 48).toUInt64 := by
        rw [u64_lt_iff, toNat_maxUint64]; have := u64_toNat_lt (n * 10 + (c - 48).toUInt64); omega
      have hwrap : ¬ n * 10 + (c - 48).toUInt64 < n * 10 := by rw [u64_lt_iff, hsum, hmul]; omega
      rw [if_neg (not_or.mpr ⟨hwrap, hmax⟩), if_neg hov]
      congr 1
      rw [u64_eq_iff, hsum, u64_toNat_ofNat]

lemma parseUintLoop_ok_iff (s0 : List UInt8) (n : UInt64) (cs : List UInt8) (v : UInt64) :
    parseUintLoop s0 n cs = (v, none) ↔
      (∀ c ∈ cs, IsDigit c) ∧ cs.foldl decStep n.toNat < 2 ^ 64 ∧
        v.toNat = cs.foldl decStep n.toNat := by
  induction cs generalizing n with
  | nil =>
    simp only [parseUintLoop, Prod.mk.injEq, and_true, List.foldl_nil, List.not_mem_nil,
      false_imp_iff, implies_true, true_and, u64_toNat_lt, u64_eq_iff]
    exact eq_comm
  | cons c cs ih =>
    by_cases hc : IsDigit c
    · rw [parseUintLoop_digit n hc]
      have hge := le_foldl_decStep (decStep n.toNat c) cs
      split_ifs with hov
      · simp only [Prod.mk.injEq, reduceCtorEq, and_false, false_iff, List.foldl_cons]
        omega
      · rw [ih, u64_toNat_ofNat, Nat.mod_eq_of_lt (by omega)]
        simp [hc]
    · rw [parseUintLoop_not_digit n hc]
      simp [hc]

lemma parseUintLoop_range {s0 : List UInt8} {n un : UInt64} {cs : List UInt8} {e : NumError}
    (h : parseUintLoop s0 n cs = (un, some e)) (he : e.err = .errRange) : un = maxUint64 := by
  induction cs generalizing n with
  | nil => cases h
  | cons c cs ih =>
    by_cases hc : IsDigit c
    · rw [parseUintLoop_digit n hc] at h
      split_ifs at h
      · exact (Prod.mk.inj h).1.symm
      · exact ih h
    · rw [parseUintLoop_not_digit n hc] at h
      cases h; cases he

/-! ### `ParseUint` and `ParseInt` -/

lemma parseUint_ok_iff (s : List UInt8) (v : UInt64) :
    parseUint s = (v, none) ↔ Digits s ∧ decimalValue s < 2 ^ 64 ∧ v.toNat = decimalValue s := by
  unfold parseUint Digits decimalValue
  by_cases hs : s = []
  · simp [hs]
  · rw [if_neg hs, parseUintLoop_ok_iff]
    simp [hs, and_assoc]

lemma parseUint_ne_of_not {s : List UInt8} {un : UInt64} {e : NumError}
    (hp : parseUint s = (un, some e)) : ¬ (Digits s ∧ decimalValue s < 2 ^ 64) :=
  fun ⟨hd, hlt⟩ => by
  have := (parseUint_ok_iff s (UInt64.ofNat (decimalValue s))).2 ⟨hd, hlt, by simp; omega⟩
  rw [hp] at this; cases this

lemma parseInt_ok_iff_of_split {s0 r : List UInt8} {neg : Bool} (hs : s0 ≠ [])
    (hsp : splitSign s0 = (neg, r)) (v : Int) :
    parseInt s0 = (v, none) ↔ Digits r ∧
      (if neg then decimalValue r ≤ 2 ^ 63 else decimalValue r < 2 ^ 63) ∧
      v = if neg then -(decimalValue r : Int) else decimalValue r := by
  simp only [parseInt, if_neg hs, hsp]
  rcases hp : parseUint r with ⟨un, _ | e⟩
  · obtain ⟨hd, hlt, hv⟩ := (parseUint_ok_iff r un).1 hp
    cases neg <;> simp [Option.filter, hd, hv, wrap64] <;> split_ifs <;> simp <;> omega
  · have hbad := parseUint_ne_of_not hp
    by_cases he : e.err = .errRange
    · have hun : un = maxUint64 := by
        unfold parseUint at hp; split_ifs at hp
        · cases hp; cases he
        · exact parseUintLoop_range hp he
      subst hun
      cases neg <;> simp [Option.filter, he] <;> exact fun hd _ => absurd ⟨hd, by omega⟩ hbad
    · cases neg <;> simp [Option.filter, he] <;> exact fun hd _ => absurd ⟨hd, by omega⟩ hbad
def signedValue (sg ds : List UInt8) : Int :=
  if sg = [45] then -(decimalValue ds : Int) else decimalValue ds

/-- The strings `ParseInt` accepts, with their value: an optional `+` or `-`, then digits whose
signed value is an `int64`. -/
def SignedDigits (s : List UInt8) (v : Int) : Prop :=
  ∃ sg ds, s = sg ++ ds ∧ (sg = [] ∨ sg = [43] ∨ sg = [45]) ∧ Digits ds ∧
    InInt64 (signedValue sg ds) ∧ v = signedValue sg ds

lemma digits_cons {ds : List UInt8} (h : Digits ds) : ∃ c r, ds = c :: r ∧ IsDigit c := by
  obtain ⟨hne, hall⟩ := h
  obtain ⟨c, r, rfl⟩ := List.exists_cons_of_ne_nil hne
  exact ⟨c, r, rfl, hall c (List.mem_cons_self c r)⟩

lemma splitSign_append {sg ds : List UInt8} (hd : Digits ds)
    (hsg : sg = [] ∨ sg = [43] ∨ sg = [45]) :
    splitSign (sg ++ ds) = (decide (sg = [45]), ds) := by
  obtain ⟨c, r, rfl, hc⟩ := digits_cons hd
  have h43 : c ≠ 43 := fun h => absurd (h ▸ hc) (by decide)
  have h45 : c ≠ 45 := fun h => absurd (h ▸ hc) (by decide)
  rcases hsg with rfl | rfl | rfl
  · unfold splitSign; split <;> simp_all
  · rfl
  · rfl

lemma splitSign_spec (s : List UInt8) :
    ∃ sg, s = sg ++ (splitSign s).2 ∧ (sg = [] ∨ sg = [43] ∨ sg = [45]) ∧
      (splitSign s).1 = decide (sg = [45]) := by
  unfold splitSign
  split
  · exact ⟨[43], rfl, by simp⟩
  · exact ⟨[45], rfl, by simp⟩
  · exact ⟨[], rfl, by simp⟩

lemma parseInt_ok_iff (s : List UInt8) (v : Int) : parseInt s = (v, none) ↔ SignedDigits s v := by
  constructor
  · intro h
    have hs : s ≠ [] := by rintro rfl; cases h
    obtain ⟨sg, hsplit, hsg, hneg⟩ := splitSign_spec s
    generalize hsp : splitSign s = p at hsplit hneg
    obtain ⟨neg, r⟩ := p
    obtain ⟨hd, hr, hv⟩ := (parseInt_ok_iff_of_split hs hsp v).1 h
    refine ⟨sg, _, hsplit, hsg, hd, ?_⟩
    simp only at hneg
    subst hneg
    simp only [decide_eq_true_eq] at hr hv
    unfold signedValue InInt64
    by_cases h45 : sg = [45] <;> simp only [h45, ite_true, ite_false, ↓reduceIte] at hr hv ⊢ <;>
      omega
  · rintro ⟨sg, ds, rfl, hsg, hd, hr, rfl⟩
    have hs : sg ++ ds ≠ [] := by simp [hd.1]
    rw [parseInt_ok_iff_of_split hs (splitSign_append hd hsg)]
    unfold InInt64 signedValue at hr
    simp only [decide_eq_true_eq, signedValue]
    by_cases h45 : sg = [45] <;> simp only [h45, ite_true, ite_false, ↓reduceIte] at hr ⊢ <;>
      exact ⟨hd, by omega, trivial⟩

/-! ### Quotes -/

lemma unquote_quoted (ds : List UInt8) : unquote (quoted ds) = ds := by
  have : (34 :: (ds ++ [34])).getLast? = some 34 := List.getLast?_concat (34 :: ds)
  simp [unquote, quoted, this]

lemma unquote_of_head {d : List UInt8} (h : d.head? ≠ some 34) : unquote d = d := by
  simp [unquote, h]

lemma unquote_cases (d : List UInt8) : unquote d = d ∨ d = quoted (unquote d) := by
  unfold unquote
  split_ifs with h
  · right
    obtain ⟨hlen, hhead, hlast⟩ := h
    obtain ⟨a, t, rfl⟩ :=
      List.exists_cons_of_ne_nil (List.ne_nil_of_length_pos (show 0 < d.length by omega))
    have ht : t ≠ [] := List.ne_nil_of_length_pos (by simp at hlen; omega)
    simp only [List.head?_cons, Option.some.injEq] at hhead
    subst hhead
    rw [List.getLast?_cons, List.getLast?_eq_getLast _ ht] at hlast
    simp only [Option.getD_some, Option.some.injEq] at hlast
    conv_lhs => rw [← List.dropLast_append_getLast ht, hlast]
    simp [quoted]
  · left; rfl

lemma isDigit_ne_quote {c : UInt8} (h : IsDigit c) : c ≠ 34 := fun e => absurd (e ▸ h) (by decide)

/-! ### The decoders -/

lemma uint64Str_ok_iff_parse (d : List UInt8) (v : UInt64) :
    Uint64Str.unmarshalJSON d = .ok v ↔ parseUint (unquote d) = (v, none) := by
  unfold Uint64Str.unmarshalJSON
  split <;> simp_all

lemma int64Str_ok_iff_parse (d : List UInt8) (v : Int) :
    Int64Str.unmarshalJSON d = .ok v ↔ parseInt (unquote d) = (v, none) := by
  unfold Int64Str.unmarshalJSON
  split <;> simp_all

lemma uint64Str_ok_iff (d : List UInt8) (v : UInt64) :
    Uint64Str.unmarshalJSON d = .ok v ↔
      ∃ ds, (d = ds ∨ d = quoted ds) ∧ Digits ds ∧ decimalValue ds < 2 ^ 64 ∧
        v.toNat = decimalValue ds := by
  rw [uint64Str_ok_iff_parse, parseUint_ok_iff]
  constructor
  · rintro h
    exact ⟨unquote d, (unquote_cases d).imp Eq.symm id, h⟩
  · rintro ⟨ds, hd | rfl, h⟩
    · subst hd
      obtain ⟨c, r, rfl, hc⟩ := digits_cons h.1
      rwa [unquote_of_head (by simpa using isDigit_ne_quote hc)]
    · rwa [unquote_quoted]

lemma int64Str_ok_iff (d : List UInt8) (v : Int) :
    Int64Str.unmarshalJSON d = .ok v ↔ ∃ s, (d = s ∨ d = quoted s) ∧ SignedDigits s v := by
  rw [int64Str_ok_iff_parse, parseInt_ok_iff]
  constructor
  · rintro h
    exact ⟨unquote d, (unquote_cases d).imp Eq.symm id, h⟩
  · rintro ⟨s, hd | rfl, h⟩
    · subst hd
      obtain ⟨sg, ds, rfl, hsg, hds, hv⟩ := h
      obtain ⟨c, r, rfl, hc⟩ := digits_cons hds
      have := isDigit_ne_quote hc
      rw [unquote_of_head (by rcases hsg with rfl | rfl | rfl <;> simp [this])]
      exact ⟨sg, _, rfl, hsg, hds, hv⟩
    · rwa [unquote_quoted]

/-! ### Round trip -/

lemma u8_toNat_ofNat (n : Nat) : (UInt8.ofNat n).toNat = n % 256 := by
  simp [UInt8.toNat, UInt8.ofNat]

lemma foldr_decStep_digits (L : List Nat) (hL : ∀ d ∈ L, d < 10) :
    L.foldr (fun d a => decStep a (UInt8.ofNat (d + 48))) 0 = Nat.ofDigits 10 L := by
  induction L with
  | nil => rfl
  | cons d L ih =>
    have hd := hL d (List.mem_cons_self d L)
    rw [List.foldr_cons, ih (fun x hx => hL x (List.mem_cons_of_mem d hx)), Nat.ofDigits_cons]
    simp only [decStep, u8_toNat_ofNat]
    omega

lemma decimalValue_decimal (n : Nat) : decimalValue (decimal n) = n := by
  unfold decimal decimalValue
  split_ifs with h
  · subst h; rfl
  · rw [List.foldl_map, List.foldl_reverse,
      foldr_decStep_digits _ fun d hd => Nat.digits_lt_base (by norm_num) hd, Nat.ofDigits_digits]

lemma digits_decimal (n : Nat) : Digits (decimal n) := by
  unfold decimal Digits
  split_ifs with h
  · exact ⟨List.cons_ne_nil _ _, by decide⟩
  · refine ⟨by simpa using Nat.digits_ne_nil_iff_ne_zero.mpr h, ?_⟩
    simp only [List.mem_map, List.mem_reverse]
    rintro c ⟨d, hd, rfl⟩
    have := Nat.digits_lt_base (by norm_num) hd
    simp only [IsDigit, u8_toNat_ofNat]
    omega

lemma signedDigits_decimalInt (i : Int) (h : InInt64 i) : SignedDigits (decimalInt i) i := by
  unfold InInt64 at h
  unfold decimalInt
  split_ifs with hneg
  · refine ⟨[45], decimal i.natAbs, rfl, by simp, digits_decimal _, ?_⟩
    simp only [signedValue, decimalValue_decimal, ite_true, InInt64]
    omega
  · refine ⟨[], decimal i.toNat, rfl, by simp, digits_decimal _, ?_⟩
    simp only [signedValue, decimalValue_decimal, InInt64]
    simp
    omega

/-- **The integer decoders.** `Uint64Str` accepts exactly the nonempty digit strings, bare or in one
pair of quotes, whose value is a `uint64`, and stores that value; `Int64Str` likewise with an
optional sign and the `int64` range. So every `uint64` and `int64`, rendered in decimal, bare or
quoted, decodes to itself. -/
theorem unmarshalJSON_iff :
    (∀ d v, Uint64Str.unmarshalJSON d = .ok v ↔
      ∃ ds, (d = ds ∨ d = quoted ds) ∧ Digits ds ∧ decimalValue ds < 2 ^ 64 ∧
        v.toNat = decimalValue ds) ∧
    (∀ d v, Int64Str.unmarshalJSON d = .ok v ↔ ∃ s, (d = s ∨ d = quoted s) ∧ SignedDigits s v) ∧
    (∀ n : UInt64, Uint64Str.unmarshalJSON (decimal n.toNat) = .ok n ∧
      Uint64Str.unmarshalJSON (quoted (decimal n.toNat)) = .ok n) ∧
    (∀ i : {x : Int // InInt64 x}, Int64Str.unmarshalJSON (decimalInt i) = .ok i.1 ∧
      Int64Str.unmarshalJSON (quoted (decimalInt i)) = .ok i.1) := by
  refine ⟨uint64Str_ok_iff, int64Str_ok_iff, fun n => ?_, fun ⟨i, hi⟩ => ?_⟩
  · have hv : decimalValue (decimal n.toNat) = n.toNat := decimalValue_decimal _
    have h := fun d (hd : d = decimal n.toNat ∨ d = quoted (decimal n.toNat)) =>
      (uint64Str_ok_iff d n).2 ⟨_, hd, digits_decimal _, by rw [hv]; exact u64_toNat_lt n, hv.symm⟩
    exact ⟨h _ (Or.inl rfl), h _ (Or.inr rfl)⟩
  · have h := signedDigits_decimalInt i hi
    exact ⟨(int64Str_ok_iff _ _).2 ⟨_, Or.inl rfl, h⟩, (int64Str_ok_iff _ _).2 ⟨_, Or.inr rfl, h⟩⟩

end Pauli.Beacon.Types
