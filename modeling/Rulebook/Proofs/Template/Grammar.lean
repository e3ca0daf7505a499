/-
  The grammar of placeholders.

  What a placeholder is, the grammar says without a reader: two braces, a path between blanks, two
  braces.  Each reader is sound, as what it takes off a text is derived from its rule, and complete,
  as it takes off what is derived whatever follows, as long as that ends it (`Ends`).  Where several
  segments could be read on, the reader takes the longest; nothing is lost by that, because behind a
  segment the grammar has only a point, a blank or a brace.

  * `Identifier`, `Segment`, `Segments`, `Path`, `Placeholder`: the rules;
  * `placeholder?_iff`: the reader of placeholders finds what the grammar derives;
  * `placeholderAt?_derives`: placeholders at the positions of a text.
-/
import Mathlib.Data.List.TakeWhile
import Rulebook.Proofs.Text.CodeSets
import Rulebook.Template.Placeholder

namespace Rulebook.Template.Grammar

/-! ## Rules -/

/-- A character that can start an identifier, then characters that can stand in one. -/
inductive Identifier : List Char → Prop
  | intro {c : Char} {cs : List Char} : startsName c → (∀ d ∈ cs, inName d) → Identifier (c :: cs)

/-- An identifier, or one or more digits. -/
inductive Segment : List Char → Prop
  | identifier {cs : List Char} : Identifier cs → Segment cs
  | digits {cs : List Char} : cs ≠ [] → (∀ d ∈ cs, Text.isDigit d) → Segment cs

/-- Segments, each behind a point. -/
inductive Segments : List (List Char) → List Char → Prop
  | nil : Segments [] []
  | cons {s cs : List Char} {ss : List (List Char)} : Segment s → Segments ss cs →
      Segments (s :: ss) ('.' :: (s ++ cs))

/-- An identifier, then segments behind points. -/
inductive Path : List (List Char) → List Char → Prop
  | intro {s cs : List Char} {ss : List (List Char)} : Identifier s → Segments ss cs →
      Path (s :: ss) (s ++ cs)

/-- A path between double braces, with blanks around it. -/
inductive Placeholder : List (List Char) → List Char → Prop
  | intro {before cs after : List Char} {path : List (List Char)} : (∀ c ∈ before, isGap c) →
      Path path cs → (∀ c ∈ after, isGap c) →
      Placeholder path ('{' :: '{' :: (before ++ (cs ++ (after ++ ['}', '}']))))

variable {cs s rest span : List Char} {path ss : List (List Char)}

/-! ## Characters -/

theorem isDigit_of_startsName {c : Char} (h : startsName c) : Text.isDigit c = false := by
  rcases Bool.or_eq_true_iff.1 h with hletter | hscore
  · exact Text.isDigit_of_isLetter hletter
  · rw [of_decide_eq_true hscore]
    decide

theorem isGap_of_startsName {c : Char} (h : startsName c) : isGap c = false := by
  refine Bool.eq_false_iff.2 fun hgap => ?_
  rcases Bool.or_eq_true_iff.1 hgap with hc | hc <;>
  · rw [of_decide_eq_true hc] at h
    exact absurd h (by decide)

/-- A character that can stand in no name stands in no identifier. -/
theorem Identifier.not_mem {c : Char} (hs : Identifier s) (hstart : startsName c = false)
    (hin : inName c = false) : c ∉ s := by
  obtain ⟨hd, hcs⟩ := hs
  rintro (_ | ⟨_, hmem⟩)
  · exact absurd hd (by simp [hstart])
  · exact absurd (hcs _ hmem) (by simp [hin])

/-- A character that can stand in no name and is no digit stands in no segment. -/
theorem Segment.not_mem {c : Char} (hs : Segment s) (hstart : startsName c = false)
    (hin : inName c = false) (hdigit : Text.isDigit c = false) : c ∉ s := by
  cases hs with
  | identifier hs => exact hs.not_mem hstart hin
  | digits _ hs => exact fun hmem => absurd (hs c hmem) (by simp [hdigit])

/-- What stands in front of a text ends there. -/
def Ends (p : Char → Bool) (rest : List Char) : Prop :=
  ∀ c ∈ rest.head?, p c = false

theorem takeWhile_append {p : Char → Bool} (hs : ∀ c ∈ s, p c) (hrest : Ends p rest) :
    (s ++ rest).takeWhile p = s ∧ (s ++ rest).dropWhile p = rest := by
  rw [List.takeWhile_append_of_pos hs, List.dropWhile_append_of_pos hs]
  cases rest with
  | nil => exact ⟨List.append_nil s, rfl⟩
  | cons c rest =>
    have hc : ¬p c = true := by simp [hrest c rfl]
    rw [List.takeWhile_cons_of_neg hc, List.dropWhile_cons_of_neg hc]
    exact ⟨List.append_nil s, rfl⟩

/-- A text ends a segment: it goes on with a point, a blank or a closing brace, if at all. -/
def EndsSegment (rest : List Char) : Prop :=
  ∀ c ∈ rest.head?, c ∈ ['.', ' ', '\t', '}']

theorem EndsSegment.ends (h : EndsSegment rest) : Ends inName rest ∧ Ends Text.isDigit rest := by
  have hnone (c : Char) (hc : c ∈ ['.', ' ', '\t', '}']) :
      inName c = false ∧ Text.isDigit c = false := by
    simp only [List.mem_cons, List.not_mem_nil, or_false] at hc
    rcases hc with rfl | rfl | rfl | rfl <;> decide
  exact ⟨fun c hc => (hnone c (h c hc)).1, fun c hc => (hnone c (h c hc)).2⟩

/-! ## What readers take off is derived -/

theorem identifier?_sound (h : identifier? cs = some (s, rest)) :
    Identifier s ∧ cs = s ++ rest := by
  cases cs with
  | nil => cases h
  | cons c cs =>
    rw [identifier?] at h
    split_ifs at h with hc
    obtain ⟨rfl, rfl⟩ := Prod.mk.inj (Option.some.inj h)
    exact ⟨.intro hc fun d => List.mem_takeWhile_imp, by simp⟩

theorem segment?_sound (h : segment? cs = some (s, rest)) : Segment s ∧ cs = s ++ rest := by
  cases cs with
  | nil => cases h
  | cons c cs =>
    rw [segment?] at h
    split_ifs at h with hc
    · obtain ⟨rfl, rfl⟩ := Prod.mk.inj (Option.some.inj h)
      refine ⟨.digits (List.cons_ne_nil _ _) fun d hd => ?_, by simp⟩
      rcases List.mem_cons.1 hd with rfl | hd
      · exact hc
      · exact List.mem_takeWhile_imp hd
    · obtain ⟨hs, hcs⟩ := identifier?_sound h
      exact ⟨.identifier hs, hcs⟩

theorem segments?_sound {fuel : Nat} (h : segments? fuel cs = some (ss, rest)) :
    ∃ span, Segments ss span ∧ cs = span ++ rest := by
  induction fuel generalizing cs ss rest with
  | zero =>
    cases h
    exact ⟨[], .nil, rfl⟩
  | succ fuel ih =>
    unfold segments? at h
    split at h
    · next f cs' hf =>
      obtain rfl := Nat.succ.inj hf
      split at h
      · cases h
      · next s after hs =>
        split at h
        · cases h
        · next more rest' hmore =>
          cases h
          obtain ⟨hsegment, rfl⟩ := segment?_sound hs
          obtain ⟨span, hspan, rfl⟩ := ih hmore
          exact ⟨_, .cons hsegment hspan, by simp⟩
    · cases h
      exact ⟨[], .nil, rfl⟩

theorem path?_sound (h : path? cs = some (path, rest)) :
    ∃ span, Path path span ∧ cs = span ++ rest := by
  unfold path? at h
  split at h
  · cases h
  · next s after hs =>
    split at h
    · cases h
    · next ss rest' hss =>
      cases h
      obtain ⟨hidentifier, rfl⟩ := identifier?_sound hs
      obtain ⟨span, hspan, rfl⟩ := segments?_sound hss
      exact ⟨_, .intro hidentifier hspan, by simp⟩

theorem placeholder?_sound (h : placeholder? cs = some (path, rest)) :
    ∃ span, Placeholder path span ∧ cs = span ++ rest := by
  unfold placeholder? at h
  split at h
  · next body =>
    unfold bodyAfter? at h
    split at h
    · cases h
    · next path' more hpath =>
      split at h
      · next after hclose =>
        cases h
        obtain ⟨span, hspan, hbody⟩ := path?_sound hpath
        have hbefore : body.takeWhile isGap ++ body.dropWhile isGap = body :=
          List.takeWhile_append_dropWhile
        have hafter : more.takeWhile isGap ++ more.dropWhile isGap = more :=
          List.takeWhile_append_dropWhile
        rw [hbody] at hbefore
        rw [hclose] at hafter
        have hblanks (text : List Char) : ∀ c ∈ text.takeWhile isGap, isGap c :=
          fun c => List.mem_takeWhile_imp
        refine ⟨_, .intro (hblanks body) hspan (hblanks more), ?_⟩
        conv_lhs => rw [← hbefore, ← hafter]
        simp
      · cases h
  · cases h

/-! ## What is derived is taken off -/

theorem identifier?_complete (hs : Identifier s) (hrest : Ends inName rest) :
    identifier? (s ++ rest) = some (s, rest) := by
  obtain ⟨hc, hcs⟩ := hs
  obtain ⟨htake, hdrop⟩ := takeWhile_append hcs hrest
  rw [List.cons_append, identifier?, if_pos hc, htake, hdrop]

theorem segment?_complete (hs : Segment s) (hrest : EndsSegment rest) :
    segment? (s ++ rest) = some (s, rest) := by
  cases hs with
  | identifier hs =>
    have hread := identifier?_complete hs hrest.ends.1
    obtain ⟨hc, -⟩ := hs
    -- the reader looks for digits first, and no letter is one
    rw [List.cons_append] at hread ⊢
    rw [segment?, if_neg (by simp [isDigit_of_startsName hc]), hread]
  | digits hne hs =>
    obtain ⟨c, cs, rfl⟩ := List.exists_cons_of_ne_nil hne
    obtain ⟨hc, hcs⟩ := List.forall_mem_cons.1 hs
    obtain ⟨htake, hdrop⟩ := takeWhile_append hcs hrest.ends.2
    rw [List.cons_append, segment?, if_pos hc, htake, hdrop]

theorem Segments.endsSegment (hss : Segments ss span) (hrest : EndsSegment rest) :
    EndsSegment (span ++ rest) := by
  cases hss with
  | nil => exact hrest
  | cons _ _ =>
    rintro c hc
    cases hc
    decide

theorem segments?_complete {fuel : Nat} (hss : Segments ss span) (hrest : EndsSegment rest)
    (hpoint : rest.head? ≠ some '.') (hfuel : (span ++ rest).length ≤ fuel) :
    segments? fuel (span ++ rest) = some (ss, rest) := by
  induction hss generalizing fuel with
  | nil =>
    rw [List.nil_append, segments?]
    rintro f cs - rfl
    exact hpoint rfl
  | @cons s cs ss hs hss ih =>
    cases fuel with
    | zero => exact absurd hfuel (by simp)
    | succ fuel =>
      rw [List.cons_append, List.append_assoc] at hfuel ⊢
      rw [segments?, segment?_complete hs (hss.endsSegment hrest)]
      dsimp only
      rw [ih (by simp at hfuel ⊢; omega)]

theorem path?_complete (hpath : Path path span) (hrest : EndsSegment rest)
    (hpoint : rest.head? ≠ some '.') : path? (span ++ rest) = some (path, rest) := by
  obtain ⟨hs, hss⟩ := hpath
  rw [List.append_assoc, path?, identifier?_complete hs (hss.endsSegment hrest).ends.1]
  dsimp only
  rw [segments?_complete hss hrest hpoint (Nat.le_refl _)]

/-- A path starts with the start of a name, and so with no blank. -/
theorem Path.ends_isGap (hpath : Path path span) : Ends isGap (span ++ rest) := by
  obtain ⟨⟨hc, -⟩, -⟩ := hpath
  rintro d hd
  cases hd
  exact isGap_of_startsName hc

theorem isGap_iff {c : Char} : isGap c = true ↔ c ∈ [' ', '\t'] := by
  simp [isGap]

theorem placeholder?_complete (hspan : Placeholder path span) (rest : List Char) :
    placeholder? (span ++ rest) = some (path, rest) := by
  obtain @⟨before, cs, after, path, hbefore, hpath, hafter⟩ := hspan
  have hclose : EndsSegment (after ++ '}' :: '}' :: rest) ∧
      (after ++ '}' :: '}' :: rest).head? ≠ some '.' := by
    cases after with
    | nil => exact ⟨fun c hc => by cases hc; decide, by simp⟩
    | cons d after =>
      have hd : d ∈ [' ', '\t'] := isGap_iff.1 (hafter d List.mem_cons_self)
      refine ⟨fun c hc => ?_, fun hpoint => ?_⟩
      · cases hc
        exact List.mem_cons_of_mem _ (List.mem_append_left ['}'] hd)
      · cases hpoint
        exact absurd hd (by decide)
  have hbody : before ++ (cs ++ (after ++ ['}', '}'])) ++ rest =
      before ++ (cs ++ (after ++ '}' :: '}' :: rest)) := by simp
  have hbrace : Ends isGap ('}' :: '}' :: rest) := fun c hc => by
    cases hc
    decide
  rw [List.cons_append, List.cons_append, placeholder?, hbody, bodyAfter?,
    (takeWhile_append hbefore hpath.ends_isGap).2, path?_complete hpath hclose.1 hclose.2]
  dsimp only
  rw [(takeWhile_append hafter hbrace).2]
  rfl

/-! ## Placeholders in texts -/

/-- The reader finds a placeholder at the start of a text iff the grammar derives one. -/
theorem placeholder?_iff : placeholder? cs = some (path, rest) ↔
    ∃ span, Placeholder path span ∧ cs = span ++ rest := by
  constructor
  · exact placeholder?_sound
  · rintro ⟨span, hspan, rfl⟩
    exact placeholder?_complete hspan rest

/-- A text has one placeholder at its start at most. -/
theorem Placeholder.unique {path' : List (List Char)} {span' rest' : List Char}
    (h : Placeholder path span) (h' : Placeholder path' span')
    (heq : span ++ rest = span' ++ rest') : path = path' ∧ span = span' ∧ rest = rest' := by
  have hread := placeholder?_complete h rest
  rw [heq, placeholder?_complete h' rest'] at hread
  obtain ⟨rfl, rfl⟩ := Prod.mk.inj (Option.some.inj hread)
  exact ⟨rfl, List.append_cancel_right heq, rfl⟩

theorem placeholder?_eq_none_iff : placeholder? cs = none ↔
    ∀ path span rest, Placeholder path span → cs ≠ span ++ rest := by
  constructor
  · rintro hnone path span rest hspan rfl
    exact nomatch hnone.symm.trans (placeholder?_complete hspan rest)
  · intro hnone
    cases h : placeholder? cs with
    | none => rfl
    | some found =>
      obtain ⟨span, hspan, hcs⟩ := placeholder?_sound h
      exact absurd hcs (hnone _ _ _ hspan)

theorem Placeholder.ne_nil (h : Placeholder path span) : span ≠ [] := by
  cases h
  exact List.cons_ne_nil _ _

/-- What is cut out of a text as the placeholder at its start. -/
theorem bodyAfter?_span (h : bodyAfter? cs = some (path, rest)) :
    ∃ span, Placeholder path span ∧ '{' :: '{' :: cs = span ++ rest ∧
      ('{' :: '{' :: cs).take (cs.length + 2 - rest.length) = span := by
  have hread : placeholder? ('{' :: '{' :: cs) = some (path, rest) := h
  obtain ⟨span, hspan, heq⟩ := placeholder?_iff.1 hread
  have hlength := congrArg List.length heq
  simp only [List.length_cons, List.length_append] at hlength
  refine ⟨span, hspan, heq, ?_⟩
  rw [heq, show cs.length + 2 - rest.length = span.length by omega, List.take_left]

/-- A placeholder at a position, and the text that it takes from there. -/
theorem placeholderAt?_iff {text : List Char} {start stop : Nat} :
    placeholderAt? text start = some (path, stop) ↔
      stop ≤ text.length ∧ Placeholder path (text.extract start stop) := by
  constructor
  · intro h
    obtain ⟨⟨path', after⟩, hread, heq⟩ := Option.map_eq_some_iff.1 h
    cases heq
    obtain ⟨span, hspan, hdrop⟩ := placeholder?_iff.1 hread
    have hlength := congrArg List.length hdrop
    have hpos := List.length_pos_iff.2 hspan.ne_nil
    simp only [List.length_drop, List.length_append] at hlength
    have hstop : text.length - after.length - start = span.length := by omega
    refine ⟨Nat.sub_le _ _, ?_⟩
    rwa [List.extract_eq_take_drop, hdrop, hstop, List.take_left]
  · rintro ⟨hstop, hspan⟩
    have hpos := List.length_pos_iff.2 hspan.ne_nil
    rw [List.extract_eq_take_drop] at hspan hpos
    have hread := placeholder?_complete hspan ((text.drop start).drop (stop - start))
    rw [List.take_append_drop] at hread
    rw [placeholderAt?, hread]
    simp only [List.length_take, List.length_drop] at hpos
    simp only [Option.map_some, List.length_drop, Option.some.injEq, Prod.mk.injEq, true_and]
    omega

/-- **The reader of placeholders accepts its grammar.** At every position of a text it finds a path
    and the position behind the placeholder iff the text between the two positions is derived with
    that path; there is one such path and position at most, and the reader finds none iff nothing
    that starts at the position is derived. -/
theorem placeholderAt?_derives (text : List Char) (start : Nat) :
    (∀ path stop, placeholderAt? text start = some (path, stop) ↔
      stop ≤ text.length ∧ Placeholder path (text.extract start stop)) ∧
    (∀ path path' span span', Placeholder path span → Placeholder path' span' →
      span <+: text.drop start → span' <+: text.drop start → path = path' ∧ span = span') ∧
    (placeholderAt? text start = none ↔
      ∀ path span, span <+: text.drop start → ¬Placeholder path span) := by
  refine ⟨fun _ _ => placeholderAt?_iff, ?_, ?_⟩
  · rintro path path' span span' h h' ⟨rest, hrest⟩ ⟨rest', hrest'⟩
    obtain ⟨hpath, hspan, -⟩ := h.unique h' (hrest.trans hrest'.symm)
    exact ⟨hpath, hspan⟩
  · rw [placeholderAt?, Option.map_eq_none_iff, placeholder?_eq_none_iff]
    constructor
    · rintro hnone path span ⟨rest, hrest⟩ hspan
      exact hnone path span rest hspan hrest.symm
    · rintro hnone path span rest hspan hdrop
      exact hnone path span ⟨rest, hdrop.symm⟩ hspan

/-- Blanks, digits and points in a placeholder. -/
example : placeholderAt? "a \x7b\x7b x.10.y \x7d\x7d".toList 2 =
    some (["x".toList, "10".toList, "y".toList], 14) := by
  decide +kernel

/-- A segment that starts with a digit is one of digits only. -/
example : placeholderAt? "\x7b\x7bx.1y\x7d\x7d".toList 0 = none := by decide +kernel

end Rulebook.Template.Grammar
