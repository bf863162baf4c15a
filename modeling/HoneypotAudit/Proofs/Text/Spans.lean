import Mathlib.Data.List.TakeWhile

/-!
# Where spans end

A span of a class of characters does not go on in the text behind it if that is empty or begins with
no character of the class.  So what is scanned in front of such a text is what is scanned in the
front alone (`takeWhile_append_tail`), and a text of the class is scanned as a whole
(`takeWhile_append_of_stop`).
-/

namespace HoneypotAudit.Text

variable {p : Char → Bool} {front rest : List Char}

lemma takeWhile_append_tail (hrest : ∀ c ∈ rest.head?, p c = false) :
    (front ++ rest).takeWhile p = front.takeWhile p := by
  induction front with
  | nil => cases rest with
    | nil => rfl
    | cons c rest => simp [hrest c rfl]
  | cons c front ih => simp only [List.cons_append, List.takeWhile_cons, ih]

lemma dropWhile_append_tail (hrest : ∀ c ∈ rest.head?, p c = false) :
    (front ++ rest).dropWhile p = front.dropWhile p ++ rest := by
  induction front with
  | nil => cases rest with
    | nil => rfl
    | cons c rest => simp [hrest c rfl]
  | cons c front ih =>
    simp only [List.cons_append, List.dropWhile_cons, ih]
    split <;> rfl

lemma takeWhile_append_of_stop (hfront : ∀ c ∈ front, p c = true)
    (hrest : ∀ c ∈ rest.head?, p c = false) : (front ++ rest).takeWhile p = front := by
  rw [takeWhile_append_tail hrest, List.takeWhile_eq_self_iff.mpr hfront]

lemma dropWhile_append_of_stop (hfront : ∀ c ∈ front, p c = true)
    (hrest : ∀ c ∈ rest.head?, p c = false) : (front ++ rest).dropWhile p = rest := by
  rw [dropWhile_append_tail hrest, List.dropWhile_eq_nil_iff.mpr hfront, List.nil_append]

end HoneypotAudit.Text
