import Mathlib.Data.List.Basic

/-!
# Paths of the virtual file system

`FileSystem::parsePath` brings a path to its canonical form: it splits the path at the separator
`/`, drops `.` tokens, lets `..` remove the token before it, and joins what is left as
`/t₁/…/tₙ` (the empty string for no tokens).

Strings are lists of characters. `Util::String::split`, `beginsWith`, `endsWith` and
`substring` are library code outside the source tree; `split` drops the empty tokens between
adjacent separators, and `substring begin end` is empty when `begin ≥ end`.

Over token lists, a key of the mount table is `joinTokens cs ++ "/"` and a parsed path
`joinTokens ts`. The key is a string prefix of the path plus `/` exactly when `cs` is a prefix of
`ts` (`joinTokens_sep_prefix_iff`): with the trailing `/` of every key, string prefixes and
component-wise ancestors coincide.
-/

namespace HhuOS

namespace FileSystem

/-! ## Paths -/

/-- `String::split(SEPARATOR)`: the tokens between separators, empty tokens dropped. -/
def split (path : List Char) : List (List Char) :=
  (path.splitOn '/').filter fun token => !token.isEmpty

/-- One token of the loop of `parsePath`. -/
def parseToken (parsedToken : List (List Char)) (token : List Char) : List (List Char) :=
  if token = ['.'] then parsedToken
  else if token = ['.', '.'] then parsedToken.dropLast
  else parsedToken ++ [token]

/-- `FileSystem::parsePath`. -/
def parsePath (path : List Char) : List Char :=
  let parsedToken := (split path).foldl parseToken []
  if parsedToken.isEmpty then [] else '/' :: ['/'].intercalate parsedToken

/-- `String::substring(begin, end)`. -/
def substring (s : List Char) (begin «end» : Nat) : List Char := (s.drop begin).take («end» - begin)

/-! ## Tokens -/

/-- A token of a parsed path: not empty, and without a separator. -/
def IsToken (t : List Char) : Prop := t ≠ [] ∧ '/' ∉ t

/-- The canonical path of a token list, `/t₁/…/tₙ`, empty for no tokens. -/
def joinTokens : List (List Char) → List Char
  | [] => []
  | t :: ts => '/' :: (t ++ joinTokens ts)

/-- No tokens join to the empty string. -/
@[simp] lemma joinTokens_nil : joinTokens [] = [] := rfl

/-- Each token is joined behind a separator. -/
@[simp] lemma joinTokens_cons (t : List Char) (ts : List (List Char)) :
    joinTokens (t :: ts) = '/' :: (t ++ joinTokens ts) := rfl

/-- Joining two lists of tokens is joining each. -/
@[simp] lemma joinTokens_append (a b : List (List Char)) :
    joinTokens (a ++ b) = joinTokens a ++ joinTokens b := by
  induction a with
  | nil => rfl
  | cons t a ih => simp [ih]

/-- Interleaving with separators is the first token and the others joined behind separators. -/
lemma intercalate_eq_joinTokens (t : List Char) (ts : List (List Char)) :
    ['/'].intercalate (t :: ts) = t ++ joinTokens ts := by
  induction ts generalizing t with
  | nil => simp [List.intercalate]
  | cons u ts ih =>
    rw [show ['/'].intercalate (t :: u :: ts) = t ++ '/' :: ['/'].intercalate (u :: ts) by
      simp [List.intercalate, List.intersperse_cons_cons], ih]
    rfl

/-- A key, a canonical path followed by `/`, starts with `/`. -/
lemma joinTokens_sep_eq_cons (ts : List (List Char)) : ∃ u, joinTokens ts ++ ['/'] = '/' :: u := by
  cases ts with
  | nil => exact ⟨[], rfl⟩
  | cons t ts => exact ⟨t ++ joinTokens ts ++ ['/'], by simp⟩

/-- No part of a split list holds the separator. -/
lemma splitOnP_sep_free {α : Type} {p : α → Bool} {l t : List α} (ht : t ∈ l.splitOnP p) :
    ∀ x ∈ t, p x = false := by
  induction l generalizing t with
  | nil =>
    obtain rfl : t = [] := by simpa using ht
    simp
  | cons a l ih =>
    rw [List.splitOnP_cons] at ht
    split at ht
    · rcases List.mem_cons.1 ht with rfl | ht
      · simp
      · exact ih ht
    · next ha =>
      obtain ⟨u, rest, hl⟩ := List.exists_cons_of_ne_nil (List.splitOnP_ne_nil p l)
      rw [hl, List.modifyHead_cons] at ht
      rcases List.mem_cons.1 ht with rfl | ht
      · intro x hx
        rcases List.mem_cons.1 hx with rfl | hx
        · simpa using ha
        · exact ih (hl ▸ List.mem_cons_self u rest) x hx
      · exact ih (hl ▸ List.mem_cons_of_mem u ht)

/-- Every part of a split path is a token. -/
lemma isToken_of_mem_split {path t : List Char} (h : t ∈ split path) : IsToken t := by
  simp only [split, List.mem_filter, Bool.not_eq_true', List.isEmpty_eq_false] at h
  refine ⟨h.2, fun hmem => ?_⟩
  simpa using splitOnP_sep_free h.1 '/' hmem

/-- A leading separator adds no token. -/
lemma split_sep_cons (s : List Char) : split ('/' :: s) = split s := by
  simp [split, List.splitOn, List.splitOnP_cons]

/-- A token followed by a separator is the first token of the split. -/
lemma split_token_append {t : List Char} (ht : IsToken t) (s : List Char) :
    split (t ++ '/' :: s) = t :: split s := by
  unfold split List.splitOn
  rw [List.splitOnP_first _ _ (fun x hx hxs => ht.2 (by rwa [← beq_iff_eq.1 hxs])) '/' (by simp)]
  simp [ht.1]

/-- A token splits into itself. -/
lemma split_token {t : List Char} (ht : IsToken t) : split t = [t] := by
  unfold split List.splitOn
  rw [List.splitOnP_eq_single _ _ (fun x hx hxs => ht.2 (by rwa [← beq_iff_eq.1 hxs]))]
  simp [ht.1]

/-- `split` reads the tokens back from a canonical path. -/
lemma split_joinTokens {ts : List (List Char)} (hts : ∀ t ∈ ts, IsToken t) :
    split (joinTokens ts) = ts := by
  induction ts with
  | nil => rfl
  | cons t ts ih =>
    have ht := hts t (List.mem_cons_self t ts)
    rw [joinTokens_cons, split_sep_cons]
    cases ts with
    | nil => simpa using split_token ht
    | cons u us =>
      rw [joinTokens_cons, split_token_append ht, ← split_sep_cons, ← joinTokens_cons,
        ih (fun t h => hts t (List.mem_cons_of_mem _ h))]

/-- `split` reads the tokens back from a key. -/
lemma split_joinTokens_sep {ts : List (List Char)} (hts : ∀ t ∈ ts, IsToken t) :
    split (joinTokens ts ++ ['/']) = ts := by
  induction ts with
  | nil => rfl
  | cons t ts ih =>
    obtain ⟨u, hu⟩ := joinTokens_sep_eq_cons ts
    rw [joinTokens_cons, List.cons_append, split_sep_cons, List.append_assoc, hu,
      split_token_append (hts t (List.mem_cons_self t ts)), ← split_sep_cons, ← hu,
      ih (fun t h => hts t (List.mem_cons_of_mem _ h))]

/-- The tokens that `parsePath` keeps. -/
def parsedTokens (path : List Char) : List (List Char) := (split path).foldl parseToken []

/-- A token the loop of `parsePath` keeps was there from the start, or is a token of the list other
than `.` and `..`. -/
lemma mem_foldl_parseToken {l acc : List (List Char)} {t : List Char}
    (h : t ∈ l.foldl parseToken acc) : t ∈ acc ∨ t ∈ l ∧ t ≠ ['.'] ∧ t ≠ ['.', '.'] := by
  induction l generalizing acc with
  | nil => exact .inl h
  | cons u l ih =>
    rcases ih h with h | h
    · unfold parseToken at h
      split_ifs at h with h₁ h₂
      · exact .inl h
      · exact .inl (List.dropLast_subset _ h)
      · rcases List.mem_append.1 h with h | h
        · exact .inl h
        · obtain rfl := List.mem_singleton.1 h
          exact .inr ⟨List.mem_cons_self _ _, h₁, h₂⟩
    · exact .inr ⟨List.mem_cons_of_mem _ h.1, h.2⟩

/-- A name of a parsed path: a token other than `.` and `..`. -/
def IsName (t : List Char) : Prop := IsToken t ∧ t ≠ ['.'] ∧ t ≠ ['.', '.']

/-- A parsed path holds no `.` and no `..`. -/
lemma isName_of_mem_parsedTokens {path t : List Char} (h : t ∈ parsedTokens path) : IsName t := by
  rcases mem_foldl_parseToken h with h | ⟨h, h₁, h₂⟩
  · exact absurd h (List.not_mem_nil t)
  · exact ⟨isToken_of_mem_split h, h₁, h₂⟩

/-- A parsed path holds only tokens. -/
lemma isToken_of_mem_parsedTokens {path t : List Char} (h : t ∈ parsedTokens path) : IsToken t :=
  (isName_of_mem_parsedTokens h).1

/-- `parsePath` joins the tokens it keeps. -/
lemma parsePath_eq_joinTokens (path : List Char) : parsePath path = joinTokens (parsedTokens path) := by
  unfold parsePath
  rw [← parsedTokens]
  cases parsedTokens path with
  | nil => rfl
  | cons t ts => simp [intercalate_eq_joinTokens]

/-- A parsed path splits into its parsed tokens. -/
lemma split_parsePath (path : List Char) : split (parsePath path) = parsedTokens path := by
  rw [parsePath_eq_joinTokens, split_joinTokens (fun _ => isToken_of_mem_parsedTokens)]

/-- A canonical path never ends with the separator. -/
lemma isSuffixOf_sep_joinTokens {ts : List (List Char)} (hts : ∀ t ∈ ts, IsToken t) :
    ['/'].isSuffixOf (joinTokens ts) = false := by
  have hlast : (joinTokens ts).getLast? ≠ some '/' := by
    induction ts with
    | nil => simp
    | cons t ts ih =>
      have ht := hts t (List.mem_cons_self t ts)
      obtain ⟨c, hc⟩ := Option.ne_none_iff_exists'.1 (mt List.getLast?_eq_none_iff.1 ht.1)
      have hc' : c ≠ '/' := fun h => ht.2 (h ▸ List.mem_of_getLast?_eq_some hc)
      rw [joinTokens_cons, show '/' :: (t ++ joinTokens ts) = ['/'] ++ t ++ joinTokens ts by simp,
        List.getLast?_append, List.getLast?_append, hc]
      cases h : (joinTokens ts).getLast? with
      | none => simpa using hc'
      | some d => simpa [h] using ih (fun t h => hts t (List.mem_cons_of_mem _ h))
  rw [List.isSuffixOf, ← List.head?_reverse] at *
  cases h : (joinTokens ts).reverse with
  | nil => rfl
  | cons a r =>
    rw [h] at hlast
    have ha : a ≠ '/' := fun h' => hlast (by rw [h']; rfl)
    simp [List.isPrefixOf, Ne.symm ha]

/-- A parsed path does not end with a separator. -/
lemma isSuffixOf_sep_parsePath (path : List Char) : ['/'].isSuffixOf (parsePath path) = false := by
  rw [parsePath_eq_joinTokens]
  exact isSuffixOf_sep_joinTokens (fun _ => isToken_of_mem_parsedTokens)

/-! ## String prefixes of keys are component-wise ancestors -/

/-- Past two tokens, two strings that go on with a separator agree as prefixes exactly when the
tokens are equal. -/
lemma append_sep_prefix_iff {x y U V : List Char} (hx : '/' ∉ x) (hy : '/' ∉ y)
    (hU : U.head? = some '/') (hV : V.head? = some '/') : x ++ U <+: y ++ V ↔ x = y ∧ U <+: V := by
  induction x generalizing y with
  | nil =>
    cases y with
    | nil => simp
    | cons z y =>
      obtain ⟨u, rfl⟩ : ∃ u, U = '/' :: u := by
        cases U with
        | nil => simp at hU
        | cons a u => exact ⟨u, by simpa using hU⟩
      have hz : '/' ≠ z := fun h => hy (h ▸ List.mem_cons_self _ _)
      simp [List.cons_prefix_cons, hz]
  | cons w x ih =>
    cases y with
    | nil =>
      obtain ⟨v, rfl⟩ : ∃ v, V = '/' :: v := by
        cases V with
        | nil => simp at hV
        | cons a v => exact ⟨v, by simpa using hV⟩
      have hw : w ≠ '/' := fun h => hx (h ▸ List.mem_cons_self _ _)
      simp [List.cons_prefix_cons, hw]
    | cons z y =>
      simp only [List.cons_append, List.cons_prefix_cons, List.cons.injEq, and_assoc]
      rw [ih (fun h => hx (List.mem_cons_of_mem w h)) (fun h => hy (List.mem_cons_of_mem z h))]

/-- A joined path with a trailing separator starts with a separator. -/
lemma joinTokens_sep_head (ts : List (List Char)) : (joinTokens ts ++ ['/']).head? = some '/' := by
  cases ts <;> rfl

/-- A key is a string prefix of a canonical path followed by `/` exactly when its tokens are a
prefix of the path's. -/
theorem joinTokens_sep_prefix_iff {a b : List (List Char)} (ha : ∀ t ∈ a, IsToken t)
    (hb : ∀ t ∈ b, IsToken t) : joinTokens a ++ ['/'] <+: joinTokens b ++ ['/'] ↔ a <+: b := by
  induction a generalizing b with
  | nil =>
    obtain ⟨v, hv⟩ := joinTokens_sep_eq_cons b
    simp [hv, List.cons_prefix_cons]
  | cons x a ih =>
    have hx := ha x (List.mem_cons_self x a)
    cases b with
    | nil => simp [List.cons_prefix_cons, hx.1]
    | cons y b =>
      have hy := hb y (List.mem_cons_self y b)
      simp only [joinTokens_cons, List.cons_append, List.cons_prefix_cons, true_and,
        List.append_assoc]
      rw [append_sep_prefix_iff hx.2 hy.2 (joinTokens_sep_head a) (joinTokens_sep_head b),
        ih (fun t h => ha t (List.mem_cons_of_mem x h)) (fun t h => hb t (List.mem_cons_of_mem y h))]

/-- A string without separator is a prefix of a token followed by a separator exactly when it is
a prefix of the token. -/
lemma prefix_append_sep_iff {t k v : List Char} (ht : '/' ∉ t) : t <+: k ++ '/' :: v ↔ t <+: k := by
  induction t generalizing k with
  | nil => exact iff_of_true (List.nil_prefix) (List.nil_prefix)
  | cons a t ih =>
    have ha : a ≠ '/' := fun h => ht (h ▸ List.mem_cons_self _ _)
    cases k with
    | nil => simp [List.cons_prefix_cons, ha]
    | cons b k =>
      simp only [List.cons_append, List.cons_prefix_cons]
      rw [ih fun h => ht (List.mem_cons_of_mem a h)]

/-- The last token of `t :: ts` begins the token of `k :: ks` at its place, the tokens before it
agreeing, exactly when `t` is that last token and begins `k`, or `t = k` and the same holds of
`ts` and `ks`. -/
lemma exists_last_prefix_cons_iff {t k : List Char} {ts ks : List (List Char)} :
    (∃ init t' k' rest, t :: ts = init ++ [t'] ∧ k :: ks = init ++ k' :: rest ∧ t' <+: k') ↔
      ts = [] ∧ t <+: k ∨
        t = k ∧ ∃ init t' k' rest, ts = init ++ [t'] ∧ ks = init ++ k' :: rest ∧ t' <+: k' := by
  constructor
  · rintro ⟨_ | ⟨i, init⟩, t', k', rest, h₁, h₂, h₃⟩
    · simp only [List.nil_append, List.cons.injEq] at h₁ h₂
      exact .inl ⟨h₁.2, h₁.1 ▸ h₂.1 ▸ h₃⟩
    · simp only [List.cons_append, List.cons.injEq] at h₁ h₂
      exact .inr ⟨h₁.1.trans h₂.1.symm, init, t', k', rest, h₁.2, h₂.2, h₃⟩
  · rintro (⟨rfl, h⟩ | ⟨rfl, init, t', k', rest, h₁, h₂, h₃⟩)
    · exact ⟨[], t, k, ks, rfl, rfl, h⟩
    · exact ⟨t :: init, t', k', rest, by rw [h₁]; rfl, by rw [h₂]; rfl, h₃⟩

/-- A canonical path is a string prefix of a key exactly when it is the root, or its tokens are
the key's up to its last token, which begins the key's token at that place. -/
lemma joinTokens_prefix_key_iff {ts ks : List (List Char)} (hts : ∀ t ∈ ts, IsToken t)
    (hks : ∀ k ∈ ks, IsToken k) :
    joinTokens ts <+: joinTokens ks ++ ['/'] ↔
      ts = [] ∨ ∃ init t k rest, ts = init ++ [t] ∧ ks = init ++ k :: rest ∧ t <+: k := by
  induction ts generalizing ks with
  | nil => exact iff_of_true (List.nil_prefix) (.inl rfl)
  | cons t ts ih =>
    have ht := hts t (List.mem_cons_self t ts)
    cases ks with
    | nil =>
      refine iff_of_false ?_ ?_
      · simp [List.cons_prefix_cons, ht.1]
      · rintro (h | ⟨init, t', k, rest, -, h, -⟩)
        · exact List.cons_ne_nil _ _ h
        · exact List.cons_ne_nil _ _ (List.append_eq_nil.1 h.symm).2
    | cons k ks =>
      have hk := hks k (List.mem_cons_self k ks)
      obtain ⟨w, hw⟩ := joinTokens_sep_eq_cons ks
      simp only [joinTokens_cons, List.cons_append, List.cons_prefix_cons, true_and,
        List.append_assoc, hw, exists_last_prefix_cons_iff]
      cases ts with
      | nil =>
        rw [joinTokens_nil, List.append_nil, prefix_append_sep_iff ht.2]
        simp only [List.cons_ne_nil, false_or, true_and]
        exact (or_iff_left fun ⟨_, _, _, _, _, h, _⟩ =>
          List.cons_ne_nil _ _ (List.append_eq_nil.1 h.symm).2).symm
      | cons u us =>
        rw [joinTokens_cons, append_sep_prefix_iff (U := '/' :: (u ++ joinTokens us)) (V := '/' :: w)
          ht.2 hk.2 rfl rfl, ← hw, ← joinTokens_cons,
          ih (fun t' h => hts t' (List.mem_cons_of_mem t h)) (fun k' h => hks k' (List.mem_cons_of_mem k h))]
        simp only [List.cons_ne_nil, false_or, false_and]

/-- The cut of `getMountedDriver` leaves the tokens past the key, joined without leading or
trailing separator. -/
lemma substring_joinTokens (cs rs : List (List Char)) :
    substring (joinTokens (cs ++ rs) ++ ['/']) (joinTokens cs ++ ['/']).length
      ((joinTokens (cs ++ rs) ++ ['/']).length - 1) = ['/'].intercalate rs := by
  cases rs with
  | nil =>
    rw [List.append_nil, substring, Nat.sub_eq_zero_of_le (Nat.sub_le _ _), List.take_zero]; rfl
  | cons x rs =>
    rw [intercalate_eq_joinTokens, substring,
      show joinTokens (cs ++ x :: rs) ++ ['/'] = joinTokens cs ++ ['/'] ++ (x ++ joinTokens rs ++ ['/'])
        by simp,
      List.drop_left' rfl]
    exact List.take_left' (by simp only [List.length_append, List.length_singleton]; omega)

/-! ## `parsePath` is a lexical normaliser -/

/-- Lexical resolution of a path's components, as a path normaliser states it: walking from the
root, a `.` stays in place, a `..` goes up one level unless at the root, and a name goes down
into it. `above` holds the names walked into so far, innermost first. -/
def resolveLexically : List (List Char) → List (List Char) → List (List Char)
  | above, [] => above.reverse
  | above, c :: cs =>
    if c = ['.'] then resolveLexically above cs
    else if c = ['.', '.'] then resolveLexically above.tail cs
    else resolveLexically (c :: above) cs

/-- The loop of `parsePath` is lexical resolution, its list of kept tokens read from the root. -/
lemma foldl_parseToken_eq_resolveLexically (cs acc : List (List Char)) :
    cs.foldl parseToken acc = resolveLexically acc.reverse cs := by
  induction cs generalizing acc with
  | nil => exact (List.reverse_reverse acc).symm
  | cons c cs ih =>
    rw [List.foldl_cons, ih, resolveLexically, parseToken]
    split_ifs
    · rfl
    · rw [List.tail_reverse]
    · rw [List.reverse_append, List.reverse_singleton, List.singleton_append]

/-- The tokens of a parsed path are its lexical resolution. -/
lemma parsedTokens_eq_resolveLexically (path : List Char) :
    parsedTokens path = resolveLexically [] (split path) :=
  foldl_parseToken_eq_resolveLexically _ []

/-- The loop of `parsePath` keeps a list of names as it is. -/
lemma foldl_parseToken_of_isName {l : List (List Char)} (hl : ∀ t ∈ l, IsName t)
    (acc : List (List Char)) : l.foldl parseToken acc = acc ++ l := by
  induction l generalizing acc with
  | nil => simp
  | cons t l ih =>
    have ht := hl t (List.mem_cons_self t l)
    rw [List.foldl_cons, parseToken, if_neg ht.2.1, if_neg ht.2.2,
      ih (fun u hu => hl u (List.mem_cons_of_mem t hu)), List.append_assoc, List.singleton_append]

/-- `parsePath` is a lexical path normaliser. On every path it returns the empty string (the
root) or `/` followed by one or more names separated by single `/`, none of them empty, `.` or
`..`; it is the lexical resolution of the path's components, joined from the root; it is
idempotent; and two paths have the same canonical form exactly when they resolve to the same
names, so `mount`, `unmount`, `getNode` and `deleteFile` compute the same key for every spelling
of a path. -/
theorem parsePath_normalises (p : List Char) :
    (parsePath p = [] ∨
        ∃ c cs, (∀ t ∈ c :: cs, IsName t) ∧ parsePath p = '/' :: ['/'].intercalate (c :: cs)) ∧
      parsePath p = joinTokens (resolveLexically [] (split p)) ∧
      parsePath (parsePath p) = parsePath p ∧
      ∀ q, parsePath q = parsePath p ↔
        resolveLexically [] (split q) = resolveLexically [] (split p) := by
  have hidem : parsedTokens (parsePath p) = parsedTokens p := by
    rw [parsedTokens, split_parsePath,
      foldl_parseToken_of_isName (fun _ => isName_of_mem_parsedTokens), List.nil_append]
  refine ⟨?_, by rw [parsePath_eq_joinTokens, parsedTokens_eq_resolveLexically],
    by rw [parsePath_eq_joinTokens (parsePath p), hidem, ← parsePath_eq_joinTokens], fun q => ?_⟩
  · unfold parsePath
    rw [← parsedTokens]
    cases h : parsedTokens p with
    | nil => exact .inl rfl
    | cons c cs =>
      exact .inr ⟨c, cs, fun t ht => isName_of_mem_parsedTokens (h ▸ ht), rfl⟩
  · rw [← parsedTokens_eq_resolveLexically, ← parsedTokens_eq_resolveLexically]
    exact ⟨fun h => by rw [← split_parsePath, h, split_parsePath],
      fun h => by rw [parsePath_eq_joinTokens, parsePath_eq_joinTokens, h]⟩

/-- The spellings `/dev/./storage//`, `/initrd/../dev/storage` and `/../dev/storage` all resolve to
`/dev/storage`. -/
example : parsePath "/dev/./storage//".toList = "/dev/storage".toList ∧
    parsePath "/initrd/../dev/storage".toList = "/dev/storage".toList ∧
    parsePath "/../dev/storage".toList = "/dev/storage".toList := by
  decide

end FileSystem

end HhuOS
