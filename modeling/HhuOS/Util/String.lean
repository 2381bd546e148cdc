import Mathlib.Data.List.Basic

/-!
# Splitting strings at a delimiter

`Util::String::split` is library code outside the source tree. The paint tool reads its settings
file and its command strings through it with a one-character delimiter (`" "`), and, as for the
separator of file-system paths, empty tokens between adjacent delimiters are dropped. Strings are
lists of characters.

Everything below follows from one equation, `split_append_cons`: a delimiter cuts a string into
two halves that split independently. Joining tokens that are not empty and hold no delimiter,
each behind a delimiter, and splitting the result gives the tokens back
(`split_flatten_map_cons`).
-/

namespace HhuOS

namespace Util

/-- `String::split(delimiter)` for a one-character delimiter: the tokens between delimiters,
empty tokens dropped. -/
def split (s : List Char) (delimiter : Char) : List (List Char) :=
  (s.splitOn delimiter).filter fun token => !token.isEmpty

/-- `String::beginsWith`. -/
def beginsWith (s start : List Char) : Bool := start.isPrefixOf s

/-- `String::substring(begin, end)`: empty when `begin ≥ end`. -/
def substring (s : List Char) (begin «end» : Nat) : List Char := (s.drop begin).take («end» - begin)

/-- A delimiter ends the last part of what stands before it. -/
lemma splitOnP_append_cons {α : Type} {p : α → Bool} (x y : List α) {sep : α} (hsep : p sep) :
    (x ++ sep :: y).splitOnP p = x.splitOnP p ++ y.splitOnP p := by
  induction x with
  | nil => simp [List.splitOnP_cons, hsep, List.splitOnP_nil]
  | cons a x ih =>
    rw [List.cons_append, List.splitOnP_cons, List.splitOnP_cons, ih]
    split
    · rfl
    · obtain ⟨u, us, hu⟩ := List.exists_cons_of_ne_nil (List.splitOnP_ne_nil p x)
      rw [hu]
      rfl

variable {c : Char}

/-- The empty string has no tokens. -/
@[simp] lemma split_nil : split [] c = [] := by
  simp [split, List.splitOn, List.splitOnP_nil]

/-- The one equation of `split`: a delimiter cuts the string into halves that split apart. -/
lemma split_append_cons (x y : List Char) : split (x ++ c :: y) c = split x c ++ split y c := by
  rw [split, List.splitOn, splitOnP_append_cons (p := (· == c)) x y (beq_self_eq_true c),
    List.filter_append]
  rfl

/-- A leading delimiter cuts off nothing. -/
@[simp] lemma split_cons_self (y : List Char) : split (c :: y) c = split y c := by
  simpa using split_append_cons (c := c) [] y

/-- A nonempty string without the delimiter is one token. -/
lemma split_of_not_mem {t : List Char} (ht : t ≠ []) (hc : c ∉ t) : split t c = [t] := by
  rw [split, List.splitOn, List.splitOnP_eq_single _ _ fun x hx hxc => hc (by
    rwa [← beq_iff_eq.1 hxc])]
  simp [ht]

/-- Splitting a string followed by parts, each behind a delimiter: the string's tokens, then each
part's. -/
lemma split_flatten_map_cons (x : List Char) (ys : List (List Char)) :
    split (x ++ (ys.map (c :: ·)).flatten) c = split x c ++ (ys.map (split · c)).flatten := by
  induction ys generalizing x with
  | nil => simp
  | cons y ys ih =>
    rw [List.map_cons, List.flatten_cons, List.cons_append, split_append_cons, ih, List.map_cons,
      List.flatten_cons]

end Util

end HhuOS
