import Mathlib.Data.List.Forall2
import SlurmTracer.Lib.Decimal
import SlurmTracer.Lib.Json
import SlurmTracer.Lib.Search

/-! A compact JSON text denotes one value, and where it ends can be told from
the text itself. -/
namespace SlurmTracer.Lib.Json
open Utf8 Decimal Search

/-! ### Pieces -/

/-- Pieces no two of which begin alike, with what each stands for. -/
def PrefixFree {α : Type} (Piece : α → Bytes → Prop) : Prop :=
  ∀ {a b : α} {p q rest rest' : Bytes}, Piece a p → Piece b q → p ++ rest = q ++ rest' → a = b ∧ rest = rest'

/-- Texts made of pieces up to something no piece begins with are made of the
same ones. -/
theorem pieces_unique {α : Type} {Piece : α → Bytes → Prop} (free : PrefixFree Piece) (Ends : Bytes → Prop)
    (ends : ∀ {a p rest}, Piece a p → ¬ Ends (p ++ rest)) {as bs : List α} {ps qs : List Bytes} {rest rest' : Bytes}
    (first : List.Forall₂ Piece as ps) (second : List.Forall₂ Piece bs qs) (stops : Ends rest) (stops' : Ends rest')
    (same : ps.flatten ++ rest = qs.flatten ++ rest') : as = bs ∧ rest = rest' := by
  induction first generalizing bs qs with
  | nil =>
    cases second with
    | nil => exact ⟨rfl, same⟩
    | cons piece _ =>
      rw [List.flatten_nil, List.nil_append, List.flatten_cons, List.append_assoc] at same
      exact absurd (same ▸ stops) (ends piece)
  | cons piece _ ih =>
    cases second with
    | nil =>
      rw [List.flatten_nil, List.nil_append, List.flatten_cons, List.append_assoc] at same
      exact absurd (same ▸ stops') (ends piece)
    | cons piece' later =>
      rw [List.flatten_cons, List.flatten_cons, List.append_assoc, List.append_assoc] at same
      obtain ⟨rfl, same⟩ := free piece piece' same
      obtain ⟨rfl, same⟩ := ih later same
      exact ⟨rfl, same⟩

/-! ### Objects that were built up -/

namespace Members

def toList : Members → List (Bytes × Value)
  | nil => []
  | cons key value rest => (key, value) :: rest.toList

private theorem to_list_set (key : Bytes) (value : Value) : ∀ m : Members, key ∉ m.toList.map Prod.fst →
    (m.set key value).toList = m.toList ++ [(key, value)]
  | nil, _ => rfl
  | cons other held rest, fresh => by
    have apart : other ≠ key := fun same => fresh (by simp [toList, same])
    have later := to_list_set key value rest fun member => fresh (by simp only [toList, List.map_cons]; exact .tail _ member)
    simp [set, apart, toList, later]

/-- Assignments under distinct keys are all there, in order. -/
theorem to_list_assign (entries : List (Bytes × Value)) (distinct : (entries.map Prod.fst).Nodup) :
    (assign entries).toList = entries := by
  have loop (m : Members) (distinct : ((m.toList ++ entries).map Prod.fst).Nodup) :
      (entries.foldl (fun members entry => set entry.1 entry.2 members) m).toList = m.toList ++ entries := by
    clear * - distinct
    induction entries generalizing m with
    | nil => exact (List.append_nil _).symm
    | cons entry entries ih =>
      have fresh : entry.1 ∉ m.toList.map Prod.fst := by
        intro there
        rw [List.map_append, List.nodup_append] at distinct
        exact distinct.2.2 _ there entry.1 List.mem_cons_self rfl
      have set := to_list_set entry.1 entry.2 m fresh
      rw [List.foldl_cons, ih _ (by rwa [set, List.append_assoc]), set, List.append_assoc]
      rfl
  exact loop nil distinct

end Members

/-! ### Strings -/

/-- The ways to write one byte of a string. -/
inductive Spells : UInt8 → Bytes → Prop where
  | bare {c : UInt8} (may : Unescaped c) : Spells c [c]
  | short {c letter : UInt8} (has : shortEscape c = some letter) : Spells c [backslash, letter]
  | unicode {c : UInt8} (ascii : c < 0x80) : Spells c (unicodeEscape c)

/-- The byte behind a short escape. -/
def unescape (letter : UInt8) : UInt8 :=
  if letter = 98 then 8
  else if letter = 116 then 9
  else if letter = 110 then newline
  else if letter = 102 then 12
  else if letter = 114 then 13
  else letter

theorem unescape_short {c letter : UInt8} (has : shortEscape c = some letter) :
    unescape letter = c ∧ letter ≠ 117 := by
  unfold shortEscape at has
  repeat' split at has
  all_goals cases has
  all_goals subst_vars
  all_goals decide

theorem hex_digit_injective : ∀ m < 16, ∀ n < 16, hexDigit m = hexDigit n → m = n := by decide

theorem unicode_escape_injective {c d : UInt8} (same : unicodeEscape c = unicodeEscape d) : c = d := by
  simp only [unicodeEscape, List.cons.injEq, true_and, and_true] at same
  have high := hex_digit_injective _ (by have := c.toNat_lt; omega) _ (by have := d.toNat_lt; omega) same.1
  have low := hex_digit_injective _ (Nat.mod_lt _ (by omega)) _ (Nat.mod_lt _ (by omega)) same.2
  exact UInt8.toNat_inj.mp (by omega)

theorem spells_prefix_free : PrefixFree Spells := by
  intro c d p q rest rest' first second same
  cases first with
  | bare may =>
    cases second with
    | bare _ =>
      obtain ⟨rfl, rest⟩ := List.cons.inj same
      exact ⟨rfl, rest⟩
    | short _ | unicode _ => exact absurd (List.cons.inj same).1 may.2.2
  | short has =>
    obtain ⟨behind, notHex⟩ := unescape_short has
    cases second with
    | bare may => exact absurd (List.cons.inj same).1.symm may.2.2
    | short has' =>
      obtain ⟨rfl, rest⟩ := List.cons.inj (List.cons.inj same).2
      exact ⟨behind.symm.trans (unescape_short has').1, rest⟩
    | unicode _ => exact absurd (List.cons.inj (List.cons.inj same).2).1 notHex
  | unicode _ =>
    cases second with
    | bare may => exact absurd (List.cons.inj same).1.symm may.2.2
    | short has => exact absurd (List.cons.inj (List.cons.inj same).2).1.symm (unescape_short has).2
    | unicode _ =>
      obtain ⟨escape, rest⟩ := List.append_inj same rfl
      exact ⟨unicode_escape_injective escape, rest⟩

theorem spells_not_quote {c : UInt8} {p rest : Bytes} (piece : Spells c p) : (p ++ rest).head? ≠ some quote := by
  cases piece with
  | bare may => simpa using may.2.1
  | short _ | unicode _ =>
    have apart : backslash ≠ quote := by decide
    simpa [unicodeEscape] using apart

theorem bare_spelled {seq : Bytes} (bare : ∀ c ∈ seq, Unescaped c) : List.Forall₂ Spells seq (seq.map ([·])) :=
  List.forall₂_map_right_iff.mpr (List.forall₂_same.mpr fun c member => .bare (bare c member))

/-- The text between the quotes is spelled byte by byte. -/
theorem chars_spelled {s t : Bytes} (chars : Chars s t) : ∃ pieces, List.Forall₂ Spells s pieces ∧ t = pieces.flatten := by
  induction chars with
  | nil => exact ⟨[], .nil, rfl⟩
  | @plain seq s t _ bare _ ih =>
    obtain ⟨pieces, spelled, rfl⟩ := ih
    refine ⟨seq.map ([·]) ++ pieces, List.rel_append (bare_spelled bare) spelled, ?_⟩
    rw [List.flatten_append, ← List.flatMap_def, List.flatMap_singleton']
  | @short c letter s t has _ ih =>
    obtain ⟨pieces, spelled, rfl⟩ := ih
    exact ⟨[backslash, letter] :: pieces, .cons (.short has) spelled, rfl⟩
  | @unicode c s t ascii _ ih =>
    obtain ⟨pieces, spelled, rfl⟩ := ih
    exact ⟨unicodeEscape c :: pieces, .cons (.unicode ascii) spelled, rfl⟩

theorem string_text_unique : PrefixFree StringText := by
  rintro s s' p q rest rest' ⟨body, chars, rfl⟩ ⟨body', chars', rfl⟩ same
  obtain ⟨pieces, spelled, rfl⟩ := chars_spelled chars
  obtain ⟨pieces', spelled', rfl⟩ := chars_spelled chars'
  simp only [List.cons_append, List.append_assoc, List.cons.injEq, true_and, List.nil_append] at same
  obtain ⟨rfl, rest⟩ := pieces_unique spells_prefix_free (fun t => t.head? = some quote) spells_not_quote
    spelled spelled' rfl rfl same
  exact ⟨rfl, (List.cons.inj rest).2⟩

theorem string_text_head {s t : Bytes} (text : StringText s t) : t.head? = some quote := by
  obtain ⟨body, -, rfl⟩ := text
  rfl

/-! ### Values -/

/-- Behind a value no number goes on. -/
def Stops (rest : Bytes) : Prop := ∀ c ∈ rest.head?, isDigit c = false ∧ c ≠ 46

@[simp] theorem stops_cons (c : UInt8) (rest : Bytes) : Stops (c :: rest) ↔ isDigit c = false ∧ c ≠ 46 := by
  simp [Stops]

/-- A printed number up to something that is no digit. -/
theorem to_decimal_unique {m n : Nat} {rest rest' : Bytes} (stops : ∀ c, rest.head? = some c → isDigit c = false)
    (stops' : ∀ c, rest'.head? = some c → isDigit c = false) (same : toDecimal m ++ rest = toDecimal n ++ rest') :
    m = n ∧ rest = rest' := by
  obtain ⟨taken, left⟩ := take_run (to_decimal_digits m) stops
  obtain ⟨taken', left'⟩ := take_run (to_decimal_digits n) stops'
  rw [same] at taken left
  have digits : toDecimal m = toDecimal n := taken.symm.trans taken'
  exact ⟨by rw [← digits_value_to_decimal m, digits, digits_value_to_decimal], left.symm.trans left'⟩

/-- What a value's first byte tells of it. -/
inductive Shape where
  | null | number | string | object

def Value.shape : Value → Shape
  | .null => .null
  | .unsigned _ | .whole _ => .number
  | .string _ => .string
  | .object _ => .object

def shapeOf (c : UInt8) : Shape :=
  if c = 110 then .null else if c = quote then .string else if c = 123 then .object else .number

theorem shape_of_digit {c : UInt8} (digit : isDigit c = true) : shapeOf c = .number := by
  have bounds := digit_bounds digit
  have apart : c ≠ 110 ∧ c ≠ quote ∧ c ≠ 123 := by
    refine ⟨?_, ?_, ?_⟩ <;>
    · rintro rfl
      revert bounds
      decide
  simp [shapeOf, apart]

theorem text_shape {v : Value} {t : Bytes} (text : Text v t) : t.head?.map shapeOf = some v.shape := by
  have number (n : Nat) (rest : Bytes) : (toDecimal n ++ rest).head?.map shapeOf = some .number := by
    obtain ⟨c, digits, shape⟩ := List.exists_cons_of_ne_nil (to_decimal_filled n)
    rw [shape, List.cons_append, List.head?_cons, Option.map_some,
      shape_of_digit (to_decimal_digits n c (by rw [shape]; exact List.mem_cons_self))]
  cases text with
  | null => rfl
  | unsigned n => simpa [Value.shape] using number n []
  | whole n zeros =>
    rw [List.append_assoc]
    exact number n _
  | string quoted =>
    rw [string_text_head quoted]
    rfl
  | object _ => rfl

theorem text_filled {v : Value} {t : Bytes} (text : Text v t) : t ≠ [] := by
  rintro rfl
  cases text_shape text

/-- Texts that begin alike are of values of one shape. -/
theorem shapes_alike {v v' : Value} {t t' rest rest' : Bytes} (first : Text v t) (second : Text v' t')
    (same : t ++ rest = t' ++ rest') : v.shape = v'.shape := by
  have heads : t.head? = t'.head? := by
    rw [← List.head?_append_of_ne_nil t (text_filled first), same, List.head?_append_of_ne_nil t' (text_filled second)]
  have shapes := text_shape first
  rw [heads, text_shape second] at shapes
  exact (Option.some.inj shapes).symm

private theorem whole_unique {zeros zeros' : Nat} {rest rest' : Bytes} (stops : Stops rest) (stops' : Stops rest')
    (same : List.replicate (zeros + 1) 48 ++ rest = List.replicate (zeros' + 1) 48 ++ rest') : rest = rest' := by
  have digits (n : Nat) : ∀ c ∈ List.replicate n (48 : UInt8), isDigit c = true := by
    intro c member
    rw [(List.mem_replicate.mp member).2]
    rfl
  have left := (take_run (digits (zeros + 1)) fun c head => (stops c head).1).2
  rw [same, (take_run (digits (zeros' + 1)) fun c head => (stops' c head).1).2] at left
  exact left.symm

private theorem point_stops {rest : Bytes} : ∀ c, (ascii "." ++ rest).head? = some c → isDigit c = false := by
  rintro c head
  cases head
  rfl

private theorem comma_stops {rest : Bytes} : Stops (ascii "," ++ rest) := by
  rintro c head
  cases head
  decide

private theorem brace_stops {rest : Bytes} : Stops (125 :: rest) := by
  rintro c head
  cases head
  decide

/-- An object's end is told from another member. -/
private theorem brace_before_name {key kt more rest : Bytes} (name : StringText key kt) : 125 :: rest ≠ kt ++ more := by
  obtain ⟨body, -, rfl⟩ := name
  intro same
  exact absurd (List.cons.inj same).1 (by decide)

mutual

/-- A text denotes one value, and only that value's own text begins so. -/
theorem text_unique : ∀ {v v' : Value} {t t' rest rest' : Bytes}, Text v t → Text v' t' → Stops rest → Stops rest' →
    t ++ rest = t' ++ rest' → v = v' ∧ rest = rest'
  | _, _, _, _, _, _, .null, second, _, _, same => by
    have alike := shapes_alike .null second same
    cases second with
    | null => exact ⟨rfl, List.append_cancel_left same⟩
    | _ => cases alike
  | _, _, _, _, _, _, .unsigned n, second, stops, stops', same => by
    have alike := shapes_alike (.unsigned n) second same
    cases second with
    | unsigned n' =>
      obtain ⟨rfl, rest⟩ := to_decimal_unique (fun c head => (stops c head).1) (fun c head => (stops' c head).1) same
      exact ⟨rfl, rest⟩
    | whole n' zeros =>
      rw [List.append_assoc, List.append_assoc] at same
      obtain ⟨-, rest⟩ := to_decimal_unique (fun c head => (stops c head).1) point_stops same
      exact absurd rfl (stops 46 (by rw [rest]; rfl)).2
    | _ => cases alike
  | _, _, _, _, _, _, .whole n zeros, second, stops, stops', same => by
    have alike := shapes_alike (.whole n zeros) second same
    cases second with
    | unsigned n' =>
      rw [List.append_assoc, List.append_assoc] at same
      obtain ⟨-, rest⟩ := to_decimal_unique point_stops (fun c head => (stops' c head).1) same
      exact absurd rfl (stops' 46 (by rw [← rest]; rfl)).2
    | whole n' zeros' =>
      simp only [List.append_assoc] at same
      obtain ⟨rfl, rest⟩ := to_decimal_unique point_stops point_stops same
      exact ⟨rfl, whole_unique stops stops' (List.append_cancel_left rest)⟩
    | _ => cases alike
  | _, _, _, _, _, _, .string quoted, second, _, _, same => by
    have alike := shapes_alike (.string quoted) second same
    cases second with
    | string quoted' =>
      obtain ⟨rfl, rest⟩ := string_text_unique quoted quoted' same
      exact ⟨rfl, rest⟩
    | _ => cases alike
  | _, _, _, _, _, _, .object inside, second, _, _, same => by
    have alike := shapes_alike (.object inside) second same
    cases second with
    | object inside' =>
      simp only [List.append_assoc] at same
      obtain ⟨rfl, rest⟩ := members_text_unique inside inside' (List.append_cancel_left same)
      exact ⟨rfl, rest⟩
    | _ => cases alike

theorem members_text_unique : ∀ {m m' : Members} {t t' rest rest' : Bytes}, MembersText m t → MembersText m' t' →
    t ++ 125 :: rest = t' ++ 125 :: rest' → m = m' ∧ rest = rest'
  | _, _, _, _, _, _, .nil, second, same => by
    cases second with
    | nil => exact ⟨rfl, (List.cons.inj same).2⟩
    | last name _ | cons name _ _ =>
      simp only [List.append_assoc] at same
      exact absurd same (brace_before_name name)
  | _, _, _, _, _, _, .last name held, second, same => by
    simp only [List.append_assoc] at same
    cases second with
    | nil => exact absurd same.symm (brace_before_name name)
    | last name' held' =>
      simp only [List.append_assoc] at same
      obtain ⟨rfl, same⟩ := string_text_unique name name' same
      obtain ⟨rfl, same⟩ := text_unique held held' brace_stops brace_stops (List.append_cancel_left same)
      exact ⟨rfl, (List.cons.inj same).2⟩
    | cons name' held' _ =>
      simp only [List.append_assoc] at same
      obtain ⟨rfl, same⟩ := string_text_unique name name' same
      obtain ⟨-, same⟩ := text_unique held held' brace_stops comma_stops (List.append_cancel_left same)
      exact absurd (List.cons.inj same).1 (by decide)
  | _, _, _, _, _, _, .cons name held later, second, same => by
    simp only [List.append_assoc] at same
    cases second with
    | nil => exact absurd same.symm (brace_before_name name)
    | last name' held' =>
      simp only [List.append_assoc] at same
      obtain ⟨rfl, same⟩ := string_text_unique name name' same
      obtain ⟨-, same⟩ := text_unique held held' comma_stops brace_stops (List.append_cancel_left same)
      exact absurd (List.cons.inj same).1 (by decide)
    | cons name' held' later' =>
      simp only [List.append_assoc] at same
      obtain ⟨rfl, same⟩ := string_text_unique name name' same
      obtain ⟨rfl, same⟩ := text_unique held held' comma_stops comma_stops (List.append_cancel_left same)
      obtain ⟨others, rest⟩ := members_text_unique later later' (List.append_cancel_left same)
      exact ⟨by rw [others], rest⟩

end

end SlurmTracer.Lib.Json
