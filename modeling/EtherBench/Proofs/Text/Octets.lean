import EtherBench.Ethernet.Address
import EtherBench.Text.Utf8
import Mathlib.Algebra.Group.Action.Defs
import Mathlib.Algebra.Order.BigOperators.Group.List
import Mathlib.Tactic.IntervalCases

/-!
# Texts and their octets

Numbers and addresses take few octets, whatever they are. A text that is decoded
from its own octets comes back. Other octets are decoded too, and a replacement
character takes three octets where the input had one at least: so a decoded text
takes at most three times what it was decoded from.
-/

namespace EtherBench

namespace Bytes

theorem ofText_append (s t : String) : ofText (s ++ t) = ofText s ++ ofText t := by
  simp [ofText, String.toByteArray_append]

theorem ofText_ofList (cs : List Char) : ofText (String.ofList cs) = cs.flatMap String.utf8EncodeChar := by
  simp [ofText, List.utf8Encode, String.toByteArray_ofList, List.data_toByteArray]

theorem ofText_eq_flatMap (s : String) : ofText s = s.toList.flatMap String.utf8EncodeChar := by
  rw [← ofText_ofList, String.ofList_toList]

theorem ofText_join (texts : List String) : ofText (String.join texts) = texts.flatMap ofText := by
  induction texts with
  | nil => rfl
  | cons s texts ih => rw [String.join_cons, ofText_append, ih, List.flatMap_cons]

section
variable {texts : List String} {n : Nat}

theorem length_join_le (h : ∀ s ∈ texts, (ofText s).length ≤ n) :
    (ofText (String.join texts)).length ≤ texts.length * n := by
  rw [ofText_join, List.length_flatMap, ← smul_eq_mul]
  refine (List.sum_le_card_nsmul _ n ?_).trans_eq (by rw [List.length_map])
  exact List.forall_mem_map.mpr h

theorem le_length_join (h : ∀ s ∈ texts, n ≤ (ofText s).length) :
    texts.length * n ≤ (ofText (String.join texts)).length := by
  rw [ofText_join, List.length_flatMap, ← smul_eq_mul]
  refine Eq.trans_le (by rw [List.length_map]) (List.card_nsmul_le_sum _ n ?_)
  exact List.forall_mem_map.mpr h

end

/-! ## Numbers and addresses -/

theorem length_of_ascii {cs : List Char} (h : ∀ c ∈ cs, c.utf8Size = 1) :
    (cs.flatMap String.utf8EncodeChar).length = cs.length := by
  induction cs with
  | nil => rfl
  | cons c cs ih =>
    rw [List.forall_mem_cons] at h
    rw [List.flatMap_cons, List.length_append, String.length_utf8EncodeChar, h.1, ih h.2,
      List.length_cons, Nat.add_comm]

theorem length_ofText_word (n : UInt16) :
    1 ≤ (ofText (toString n)).length ∧ (ofText (toString n)).length ≤ 5 := by
  have hlist : (toString n).toList = Nat.toDigits 10 n.toNat := Nat.toList_repr
  have hascii : ∀ c ∈ Nat.toDigits 10 n.toNat, c.utf8Size = 1 := by
    intro c hc
    have hdigit := Nat.isDigit_of_mem_toDigits (by decide) (by decide) hc
    rw [Char.isDigit_iff_toNat] at hdigit
    rw [Char.utf8Size_eq_one_iff, UInt32.le_iff_toNat_le]
    exact hdigit.2.trans (by decide)
  have hlt : n.toNat < 65536 := n.toNat_lt
  rw [ofText_eq_flatMap, hlist, length_of_ascii hascii]
  exact ⟨Nat.length_toDigits_pos, (Nat.length_toDigits_le_iff (by decide) (by decide)).mpr (by omega)⟩

theorem utf8Size_hexDigit {n : Nat} (hn : n < 16) : (Hex.digit n).utf8Size = 1 := by
  interval_cases n <;> rfl

theorem length_hexOctet (b : UInt8) : ((Hex.octet b).flatMap String.utf8EncodeChar).length = 2 := by
  have hb : b.toNat < 256 := b.toNat_lt
  have hascii : ∀ c ∈ Hex.octet b, c.utf8Size = 1 := by
    rw [Hex.octet, List.forall_mem_cons, List.forall_mem_singleton]
    exact ⟨utf8Size_hexDigit (by omega), utf8Size_hexDigit (by omega)⟩
  rw [length_of_ascii hascii]
  rfl

theorem length_ofText_address (m : MacAddress) : (ofText m.text).length = 17 := by
  obtain ⟨a, b, c, d, e, f, hm⟩ : ∃ a b c d e f, m.toBytes = [a, b, c, d, e, f] := by
    match h : m.toBytes, m.length_toBytes with
    | [a, b, c, d, e, f], _ => exact ⟨a, b, c, d, e, f, rfl⟩
  have hcolon : (String.utf8EncodeChar ':').length = 1 := by decide
  rw [MacAddress.text, ofText_ofList, hm]
  simp only [List.map_cons, List.map_nil, List.intercalate, List.intersperse, List.flatten_cons,
    List.flatten_nil, List.append_nil, List.flatMap_append, List.flatMap_singleton, List.length_append,
    length_hexOctet, hcolon]

end Bytes

/-! ## Decoding -/

namespace Utf8

/-- How many octets a character that is not finished may come to. -/
def State.due : State → Nat
  | .between => 0
  | .inside .. => 3

theorem utf8Size_ofNat {n : Nat} (h : n ≤ 127) : (Char.ofNat n).utf8Size = 1 := by
  have hn : (Char.ofNat n).toNat = n := by
    rw [Char.ofNat, dif_pos (.inl (by omega))]
    rfl
  rw [Char.utf8Size_eq_one_iff, UInt32.le_iff_toNat_le]
  exact hn.le.trans h

theorem utf8Size_replacement : replacement.utf8Size = 3 := by decide

theorem length_lead (b : UInt8) :
    ((lead b).1.flatMap String.utf8EncodeChar).length + (lead b).2.due ≤ 3 := by
  unfold lead
  split
  · rename_i hb
    simp [utf8Size_ofNat (UInt8.le_iff_toNat_le.mp hb), State.due]
  · repeat' split
    all_goals simp [utf8Size_replacement, State.due]

theorem length_feed (s : State) (b : UInt8) :
    ((feed s b).1.flatMap String.utf8EncodeChar).length + (feed s b).2.due ≤ s.due + 3 := by
  have hlead := length_lead b
  cases s with
  | between => exact hlead.trans (Nat.le_add_left ..)
  | inside more code low high =>
    unfold feed
    simp only
    split
    · cases more with
      | zero =>
        have := Char.utf8Size_le_four (Char.ofNat (code * 64 + (b.toNat - 0x80)))
        simp [State.due, String.length_utf8EncodeChar]
        omega
      | succ more => simp [State.due]
    · simp only [List.flatMap_cons, List.length_append, String.length_utf8EncodeChar, utf8Size_replacement,
        State.due] at hlead ⊢
      omega

theorem length_decodeFrom (s : State) (b : Bytes) :
    ((decodeFrom s b).flatMap String.utf8EncodeChar).length ≤ s.due + 3 * b.length := by
  fun_induction decodeFrom s b with
  | case1 => simp
  | case2 => simp [State.due, utf8Size_replacement]
  | case3 s b rest cs s' hf ih =>
    have := length_feed s b
    rw [hf] at this
    simp only [List.flatMap_append, List.length_append, List.length_cons] at *
    omega

theorem length_decode (b : Bytes) : (Bytes.ofText (decode b)).length ≤ 3 * b.length := by
  have := length_decodeFrom .between b
  rwa [State.due, Nat.zero_add, ← Bytes.ofText_ofList] at this

/-! ## Back again -/

section
variable {more code y : Nat} {low high : UInt8}

theorem decodeFrom_cons (s : State) (o : UInt8) (b : Bytes) :
    decodeFrom s (o :: b) = (feed s o).1 ++ decodeFrom (feed s o).2 b := by
  cases s <;> rfl

theorem feed_inside (hy : y < 64) (hlow : low.toNat ≤ y + 128) (hhigh : y + 128 ≤ high.toNat) :
    feed (.inside more code low high) (UInt8.ofNat (y + 128)) =
      match more with
      | 0 => ([Char.ofNat (code * 64 + y)], .between)
      | more + 1 => ([], .inside more (code * 64 + y) 0x80 0xBF) := by
  have ho : (UInt8.ofNat (y + 128)).toNat = y + 128 := by
    rw [UInt8.toNat_ofNat']
    omega
  have hin : low ≤ UInt8.ofNat (y + 128) ∧ UInt8.ofNat (y + 128) ≤ high := by
    rw [UInt8.le_iff_toNat_le, UInt8.le_iff_toNat_le, ho]
    exact ⟨hlow, hhigh⟩
  cases more <;> simp only [feed, if_pos hin, ho, Nat.add_sub_cancel]

theorem decodeFrom_last (hy : y < 64) (hlow : low.toNat ≤ y + 128) (hhigh : y + 128 ≤ high.toNat)
    (b : Bytes) : decodeFrom (.inside 0 code low high) (UInt8.ofNat (y + 128) :: b) =
      Char.ofNat (code * 64 + y) :: decodeFrom .between b := by
  rw [decodeFrom_cons, feed_inside hy hlow hhigh]
  rfl

theorem decodeFrom_more (hy : y < 64) (hlow : low.toNat ≤ y + 128) (hhigh : y + 128 ≤ high.toNat)
    (b : Bytes) : decodeFrom (.inside (more + 1) code low high) (UInt8.ofNat (y + 128) :: b) =
      decodeFrom (.inside more (code * 64 + y) 0x80 0xBF) b := by
  rw [decodeFrom_cons, feed_inside hy hlow hhigh]
  rfl

/-- The first octet of a character of two octets gives its upper bits. -/
theorem lead_of_two {x : Nat} (hx : 2 ≤ x) (hlt : x < 32) :
    lead (UInt8.ofNat (x + 0xC0)) = ([], .inside 0 x 0x80 0xBF) := by
  interval_cases x <;> rfl

theorem lead_of_three {x : Nat} (hlt : x < 16) :
    lead (UInt8.ofNat (x + 0xE0)) =
      ([], .inside 1 x (if x = 0 then 0xA0 else 0x80) (if x = 0xD then 0x9F else 0xBF)) := by
  interval_cases x <;> rfl

theorem lead_of_four {x : Nat} (hlt : x < 5) :
    lead (UInt8.ofNat (x + 0xF0)) =
      ([], .inside 2 x (if x = 0 then 0x90 else 0x80) (if x = 4 then 0x8F else 0xBF)) := by
  interval_cases x <;> rfl

theorem decodeFrom_utf8EncodeChar (c : Char) (b : Bytes) :
    decodeFrom .between (String.utf8EncodeChar c ++ b) = c :: decodeFrom .between b := by
  have hc : Char.ofNat c.val.toNat = c := Char.ofNat_toNat c
  have hvalid : c.val.toNat < 0xD800 ∨ 0xDFFF < c.val.toNat ∧ c.val.toNat < 0x110000 := c.valid
  unfold String.utf8EncodeChar
  generalize c.val.toNat = v at hc hvalid
  simp only
  -- the bounds on the second octet keep out surrogates and numbers that fit in fewer octets
  split
  · have hv : (UInt8.ofNat v).toNat = v := by
      rw [UInt8.toNat_ofNat']
      omega
    have hascii : UInt8.ofNat v ≤ 0x7F := by
      rw [UInt8.le_iff_toNat_le, hv]
      assumption
    rw [List.singleton_append, decodeFrom_cons, feed, lead, if_pos hascii, hv, hc]
    rfl
  split
  · rw [List.cons_append, decodeFrom_cons, feed, lead_of_two (by omega) (by omega), List.nil_append,
      List.singleton_append, decodeFrom_last (by omega) (by simp) (by simp; omega),
      show v / 64 % 32 * 64 + v % 64 = v by omega, hc]
  split
  · rw [List.cons_append, decodeFrom_cons, feed, lead_of_three (by omega), List.nil_append,
      List.cons_append, List.singleton_append,
      decodeFrom_more (by omega) (by split <;> simp; omega) (by split <;> simp <;> omega),
      decodeFrom_last (by omega) (by simp) (by simp; omega),
      show (v / 4096 % 16 * 64 + v / 64 % 64) * 64 + v % 64 = v by omega, hc]
  · rw [List.cons_append, decodeFrom_cons, feed, lead_of_four (by omega), List.nil_append,
      List.cons_append, List.cons_append, List.singleton_append,
      decodeFrom_more (by omega) (by split <;> simp; omega) (by split <;> simp <;> omega),
      decodeFrom_more (by omega) (by simp) (by simp; omega),
      decodeFrom_last (by omega) (by simp) (by simp; omega),
      show ((v / 262144 % 8 * 64 + v / 4096 % 64) * 64 + v / 64 % 64) * 64 + v % 64 = v by omega, hc]

/-- **A text comes back from its octets.** -/
theorem decode_ofText (s : String) : decode (Bytes.ofText s) = s := by
  have h (cs : List Char) : decodeFrom .between (cs.flatMap String.utf8EncodeChar) = cs := by
    induction cs with
    | nil => rfl
    | cons c cs ih => rw [List.flatMap_cons, decodeFrom_utf8EncodeChar, ih]
  rw [decode, Bytes.ofText_eq_flatMap, h, String.ofList_toList]

end

end Utf8

end EtherBench
