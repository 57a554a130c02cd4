import CodeOutline.Data.Datum

/-!
# Equality of values

Two values of a data format are compared part by part, so that it can be decided whether they are one.
-/

namespace CodeOutline.Data.Datum

mutual

/-- The values are built alike, of equal parts. -/
def alike : Datum → Datum → Bool
  | null, null => true
  | bool a, bool b => a = b
  | int i, int j => i = j
  | float x, float y => x = y
  | text s, text t => s = t
  | bytes a, bytes b => a = b
  | date d, date e => d = e
  | moment m, moment n => m = n
  | list a, list b | set a, set b => allAlike a b
  | pair a b, pair c d => alike a c && alike b d
  | map a, map b => entriesAlike a b
  | enclosing a, enclosing b => a = b
  | _, _ => false

def allAlike : List Datum → List Datum → Bool
  | [], [] => true
  | a :: rest, b :: others => alike a b && allAlike rest others
  | _, _ => false

def entriesAlike : List (Datum × Datum) → List (Datum × Datum) → Bool
  | [], [] => true
  | (k, v) :: rest, (l, w) :: others => alike k l && alike v w && entriesAlike rest others
  | _, _ => false

end

mutual

theorem alike_iff : ∀ a b : Datum, a.alike b ↔ a = b
  | null, b | bool _, b | int _, b | float _, b | text _, b | bytes _, b | date _, b | moment _, b
  | enclosing _, b => by cases b <;> simp [alike]
  | list items, b => by
    cases b with
    | list others => simp [alike, allAlike_iff items others]
    | _ => simp [alike]
  | set items, b => by
    cases b with
    | set others => simp [alike, allAlike_iff items others]
    | _ => simp [alike]
  | pair first second, b => by
    cases b with
    | pair c d => simp [alike, alike_iff first c, alike_iff second d]
    | _ => simp [alike]
  | map entries, b => by
    cases b with
    | map others => simp [alike, entriesAlike_iff entries others]
    | _ => simp [alike]

theorem allAlike_iff : ∀ items others : List Datum, allAlike items others ↔ items = others
  | [], others => by cases others <;> simp [allAlike]
  | a :: rest, others => by
    cases others with
    | nil => simp [allAlike]
    | cons b others => simp [allAlike, alike_iff a b, allAlike_iff rest others]

theorem entriesAlike_iff : ∀ entries others : List (Datum × Datum),
    entriesAlike entries others ↔ entries = others
  | [], others => by cases others <;> simp [entriesAlike]
  | (k, v) :: rest, others => by
    cases others with
    | nil => simp [entriesAlike]
    | cons b others =>
      obtain ⟨l, w⟩ := b
      simp [entriesAlike, alike_iff k l, alike_iff v w, entriesAlike_iff rest others]

end

instance : DecidableEq Datum := fun a b => decidable_of_iff (a.alike b) (alike_iff a b)

end CodeOutline.Data.Datum
