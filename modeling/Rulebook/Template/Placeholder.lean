/-
  Placeholders in texts.

  A placeholder is `{{ path }}`, with blanks (spaces and tabs) allowed inside the braces: an
  identifier, then segments after points, each an identifier or a run of digits.  `Piece.scan`
  splits a text into placeholders and the literal spans between them, from left to right; after two
  opening braces that start no placeholder it goes on behind both.

  * `bodyAfter?_suffix`: what follows a placeholder is the end of the text;
  * `Piece.concat_scan`: the spans of the pieces make up the text;
  * `scan_placeholder`: a placeholder at the start of a text is its first piece.
-/
import Rulebook.Text.Digit
import Rulebook.Text.Letter

namespace Rulebook.Template

/-! ## The grammar -/

/-- Whether a character can start an identifier. -/
def startsName (c : Char) : Bool :=
  Text.isLetter c || c = '_'

/-- Whether a character can stand in an identifier. -/
def inName (c : Char) : Bool :=
  Text.isAlphanumeric c || c = '_'

/-- Whether a character is a blank inside braces. -/
def isGap (c : Char) : Bool :=
  c = ' ' || c = '\t'

/-- An identifier at the start of a text, and what follows it. -/
def identifier? : List Char → Option (List Char × List Char)
  | [] => none
  | c :: cs =>
    if startsName c then some (c :: cs.takeWhile inName, cs.dropWhile inName) else none

/-- A segment at the start of a text, and what follows it. -/
def segment? : List Char → Option (List Char × List Char)
  | [] => none
  | c :: cs =>
    if Text.isDigit c then some (c :: cs.takeWhile Text.isDigit, cs.dropWhile Text.isDigit)
    else identifier? (c :: cs)

/-- The segments after points at the start of a text, and what follows them; `none` if a point has
    no segment behind it. `fuel` is at least the length of the text. -/
def segments? : Nat → List Char → Option (List (List Char) × List Char)
  | fuel + 1, '.' :: cs =>
    match segment? cs with
    | none => none
    | some (s, rest) =>
      match segments? fuel rest with
      | none => none
      | some (ss, rest) => some (s :: ss, rest)
  | _, cs => some ([], cs)

/-- A path at the start of a text, and what follows it. -/
def path? (cs : List Char) : Option (List (List Char) × List Char) :=
  match identifier? cs with
  | none => none
  | some (s, rest) =>
    match segments? rest.length rest with
    | none => none
    | some (ss, rest) => some (s :: ss, rest)

/-- The path of a placeholder whose opening braces stand before a text, and what follows its
    closing braces. -/
def bodyAfter? (cs : List Char) : Option (List (List Char) × List Char) :=
  match path? (cs.dropWhile isGap) with
  | none => none
  | some (path, rest) =>
    match rest.dropWhile isGap with
    | '}' :: '}' :: after => some (path, after)
    | _ => none

/-- The path of a placeholder at the start of a text, and what follows it. -/
def placeholder? : List Char → Option (List (List Char) × List Char)
  | '{' :: '{' :: rest => bodyAfter? rest
  | _ => none

/-- The path of a placeholder at a position of a text, and the position behind it. -/
def placeholderAt? (text : List Char) (start : Nat) : Option (List (List Char) × Nat) :=
  (placeholder? (text.drop start)).map fun (path, after) => (path, text.length - after.length)

/-! ## What follows is the end of the text -/

theorem identifier?_suffix {cs s rest : List Char} (h : identifier? cs = some (s, rest)) :
    rest <:+ cs := by
  cases cs with
  | nil => simp [identifier?] at h
  | cons c cs =>
    simp only [identifier?] at h
    split at h
    · obtain ⟨-, rfl⟩ := Prod.mk.inj (Option.some.inj h)
      exact (List.dropWhile_suffix _).trans (List.suffix_cons _ _)
    · exact absurd h nofun

theorem segment?_suffix {cs s rest : List Char} (h : segment? cs = some (s, rest)) :
    rest <:+ cs := by
  cases cs with
  | nil => simp [segment?] at h
  | cons c cs =>
    simp only [segment?] at h
    split at h
    · obtain ⟨-, rfl⟩ := Prod.mk.inj (Option.some.inj h)
      exact (List.dropWhile_suffix _).trans (List.suffix_cons _ _)
    · exact identifier?_suffix h

theorem segments?_suffix (fuel : Nat) (cs : List Char) {ss : List (List Char)} {rest : List Char}
    (h : segments? fuel cs = some (ss, rest)) : rest <:+ cs := by
  induction fuel generalizing cs ss rest with
  | zero => simp [segments?] at h; simp [h.2]
  | succ fuel ih =>
    unfold segments? at h
    split at h
    · next n cs' hn =>
      obtain rfl := Nat.succ.inj hn
      split at h
      · exact absurd h nofun
      · next s r hs =>
        split at h
        · exact absurd h nofun
        · next ss' r' hr =>
          obtain ⟨-, rfl⟩ := Prod.mk.inj (Option.some.inj h)
          exact ((ih r hr).trans (segment?_suffix hs)).trans (List.suffix_cons _ _)
    · obtain ⟨-, rfl⟩ := Prod.mk.inj (Option.some.inj h)
      exact List.suffix_refl _

theorem path?_suffix {cs rest : List Char} {path : List (List Char)}
    (h : path? cs = some (path, rest)) : rest <:+ cs := by
  unfold path? at h
  split at h
  · exact absurd h nofun
  · next s r hs =>
    split at h
    · exact absurd h nofun
    · next ss r' hr =>
      obtain ⟨-, rfl⟩ := Prod.mk.inj (Option.some.inj h)
      exact (segments?_suffix _ _ hr).trans (identifier?_suffix hs)

theorem bodyAfter?_suffix {cs after : List Char} {path : List (List Char)}
    (h : bodyAfter? cs = some (path, after)) : '}' :: '}' :: after <:+ cs := by
  unfold bodyAfter? at h
  split at h
  · exact absurd h nofun
  · next path' rest hp =>
    split at h
    · next after' hr =>
      obtain ⟨-, rfl⟩ := Prod.mk.inj (Option.some.inj h)
      exact hr ▸ ((List.dropWhile_suffix _).trans (path?_suffix hp)).trans (List.dropWhile_suffix _)
    · exact absurd h nofun

theorem bodyAfter?_length {cs after : List Char} {path : List (List Char)}
    (h : bodyAfter? cs = some (path, after)) : after.length + 2 ≤ cs.length :=
  (bodyAfter?_suffix h).length_le

/-! ## Pieces -/

/-- A piece of a text. -/
inductive Piece where
  /-- A span that stands for itself. -/
  | literal (span : List Char)
  /-- A placeholder as it is written, with its path. -/
  | placeholder (span : List Char) (path : List String)

namespace Piece

/-- The text of a piece as it is written. -/
def span : Piece → List Char
  | literal s => s
  | placeholder s _ => s

/-- The pieces of a text, from left to right. -/
def scan (cs : List Char) : List Piece :=
  match cs with
  | [] => []
  | '{' :: '{' :: rest =>
    match h : bodyAfter? rest with
    | some (path, after) =>
      have := bodyAfter?_length h
      .placeholder (('{' :: '{' :: rest).take (rest.length + 2 - after.length))
        (path.map String.ofList) :: scan after
    | none => .literal ['{', '{'] :: scan rest
  | c :: rest =>
    have := (List.dropWhile_suffix (· ≠ '{') (l := rest)).length_le
    .literal (c :: rest.takeWhile (· ≠ '{')) :: scan (rest.dropWhile (· ≠ '{'))
termination_by cs.length
decreasing_by all_goals simp only [List.length_cons]; omega

theorem concat_scan (cs : List Char) : (scan cs).flatMap span = cs := by
  fun_induction scan cs with
  | case1 => rfl
  | case2 rest path after h _ ih =>
    simp only [List.flatMap_cons, span, ih]
    obtain ⟨pre, rfl⟩ := bodyAfter?_suffix h
    have : (pre ++ '}' :: '}' :: after).length + 2 - after.length = pre.length + 4 := by
      simp only [List.length_append, List.length_cons]; omega
    rw [this]
    simp [List.take_append, List.take_of_length_le]
  | case3 rest _ ih => simp only [List.flatMap_cons, span, ih]; rfl
  | case4 c rest _ _ ih =>
    simp only [List.flatMap_cons, span, ih, List.cons_append, List.takeWhile_append_dropWhile]

end Piece

/-- What opens no placeholder is a literal span up to the next brace. -/
theorem scan_cons {c : Char} (hc : c ≠ '{') (cs : List Char) :
    Piece.scan (c :: cs) = .literal (c :: cs.takeWhile (· ≠ '{')) ::
      Piece.scan (cs.dropWhile (· ≠ '{')) := by
  rw [Piece.scan]
  exact fun _ hbrace => absurd hbrace hc

/-- A placeholder at the start of a text is its first piece. -/
theorem scan_placeholder {rest after : List Char} {path : List (List Char)}
    (h : bodyAfter? rest = some (path, after)) :
    ∃ span, Piece.scan ('{' :: '{' :: rest) =
      .placeholder span (path.map String.ofList) :: Piece.scan after := by
  generalize hcs : '{' :: '{' :: rest = cs
  fun_cases Piece.scan cs with
  | case1 => cases hcs
  | case2 rest' path' after' h' =>
    obtain rfl := (List.cons.inj (List.cons.inj hcs).2).2
    obtain ⟨rfl, rfl⟩ := Prod.mk.inj (Option.some.inj (h.symm.trans h'))
    exact ⟨_, rfl⟩
  | case3 rest' h' =>
    obtain rfl := (List.cons.inj (List.cons.inj hcs).2).2
    cases h.symm.trans h'
  | case4 c rest' hne =>
    obtain ⟨rfl, rfl⟩ := List.cons.inj hcs
    exact (hne rest rfl rfl).elim

end Rulebook.Template
