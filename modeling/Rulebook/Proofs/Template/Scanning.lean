/-
  Which placeholders of a text are found.

  A text is read from left to right (`Reads`): where one looks for a placeholder and one starts,
  that placeholder, otherwise one character.  One who looks everywhere finds every placeholder of
  the text, as no two of them overlap.  The scan goes on behind both of two braces that start no
  placeholder, so that in a run of braces it looks at every other one: it finds the placeholders
  behind an even number of braces.  One behind an odd number is hidden from it, and stays as it is
  written.

  * `Reads.finds`: what is found is where one looks;
  * `reads_scan`: where the scan looks;
  * `resolveText_reads`: what a text becomes, by the placeholders that are found in it.
-/
import Mathlib.Data.List.DropRight
import Rulebook.Proofs.Template.Grammar
import Rulebook.Proofs.Template.Resolution

namespace Rulebook.Template

open Grammar (Placeholder)

variable {cs before span rest : List Char} {path : List (List Char)} {c : Char}
  {looks : List Char → Prop} {ps : List Piece}

/-! ## The characters of placeholders -/

namespace Grammar

theorem Segments.brace_not_mem {ss : List (List Char)} (h : Segments ss cs) : '{' ∉ cs := by
  induction h with
  | nil => exact List.not_mem_nil
  | cons hs _ ih =>
    have hsegment : '{' ∉ _ := hs.not_mem (by decide) (by decide) (by decide)
    simp [hsegment, ih]

/-- The opening braces of a placeholder are the two at its start, and it ends in a closing one. -/
theorem Placeholder.exists_body (h : Placeholder path span) :
    ∃ body, span = '{' :: '{' :: (body ++ ['}']) ∧ '{' ∉ body := by
  obtain @⟨before, cs, after, path, hbefore, hpath, hafter⟩ := h
  have hpath' : '{' ∉ cs := match hpath with
    | .intro hs hss => by
      have hhead : '{' ∉ _ := hs.not_mem (by decide) (by decide)
      simp [hhead, hss.brace_not_mem]
  have hblanks {text : List Char} (h : ∀ c ∈ text, isGap c) : '{' ∉ text :=
    fun hmem => absurd (h _ hmem) (by decide)
  exact ⟨before ++ (cs ++ (after ++ ['}'])), by simp,
    by simp [hblanks hbefore, hpath', hblanks hafter]⟩

/-- What starts a placeholder is two braces. -/
theorem Placeholder.ne_append_of_ne (h : Placeholder path span) (hc : c ≠ '{') :
    c :: cs ≠ span ++ rest := by
  obtain ⟨body, rfl, -⟩ := h.exists_body
  exact fun heq => hc (List.cons.inj heq).1

/-- A placeholder does not start within another one. -/
theorem Placeholder.apart {path' : List (List Char)} {span' rest' : List Char}
    (h : Placeholder path span) (h' : Placeholder path' span')
    (heq : span ++ rest = before ++ (span' ++ rest')) (hne : before ≠ []) :
    ∃ between, before = span ++ between ∧ rest = between ++ (span' ++ rest') := by
  rcases List.append_eq_append_iff.1 heq with ⟨between, hbefore, hrest⟩ | ⟨tail, hspan, htail⟩
  · exact ⟨between, hbefore, hrest⟩
  · obtain ⟨body, hbody, hbrace⟩ := h.exists_body
    obtain ⟨body', hbody', -⟩ := h'.exists_body
    obtain ⟨c, more, rfl⟩ := List.exists_cons_of_ne_nil hne
    rw [hbody] at hspan
    rw [hbody', List.cons_append, List.cons_append] at htail
    rcases List.cons_eq_append_iff.1 (List.cons.inj hspan).2 with ⟨-, rfl⟩ | ⟨inner, -, hinner⟩
    · -- the second brace of the one would be the first of the other
      cases body with
      | nil => cases htail
      | cons d body =>
        obtain rfl : '{' = d := (List.cons.inj (List.cons.inj htail).2).1
        exact absurd List.mem_cons_self hbrace
    · cases tail with
      | nil => exact ⟨[], by simp [hbody, hspan], by simpa [hbody'] using htail.symm⟩
      | cons d tail =>
        obtain rfl : '{' = d := (List.cons.inj htail).1
        have hmem : '{' ∈ body ++ ['}'] := by
          rw [hinner]
          exact List.mem_append_right inner List.mem_cons_self
        exact absurd hmem (by simp [hbrace])

end Grammar

/-! ## Reading from left to right -/

/-- A text that stands behind `before` is read as pieces: as a placeholder where one looks for one
    and one starts, otherwise as a character. -/
inductive Reads (looks : List Char → Prop) : List Char → List Char → List Piece → Prop
  | done {before : List Char} : Reads looks before [] []
  | placeholder {before span rest : List Char} {path : List (List Char)} {ps : List Piece} :
      looks before → Placeholder path span → Reads looks (before ++ span) rest ps →
      Reads looks before (span ++ rest) (.placeholder span (path.map String.ofList) :: ps)
  | character {before cs : List Char} {c : Char} {ps : List Piece} :
      (looks before → ∀ path span rest, Placeholder path span → c :: cs ≠ span ++ rest) →
      Reads looks (before ++ [c]) cs ps → Reads looks before (c :: cs) (.literal [c] :: ps)

/-- To look everywhere. -/
def Everywhere (_ : List Char) : Prop := True

/-- A placeholder is among pieces, behind those of the text `before`. -/
def FoundAt (ps : List Piece) (before span : List Char) (path : List (List Char)) : Prop :=
  ∃ ps₁ ps₂, ps = ps₁ ++ .placeholder span (path.map String.ofList) :: ps₂ ∧
    ps₁.flatMap Piece.span = before

namespace Reads

/-- Every text can be read. -/
theorem exists_pieces (looks : List Char → Prop) (before cs : List Char) :
    ∃ ps, Reads looks before cs ps := by
  by_cases hfound : looks before ∧ ∃ path span rest, Placeholder path span ∧ cs = span ++ rest
  · obtain ⟨hlooks, path, span, rest, hspan, rfl⟩ := hfound
    have hpos := List.length_pos_iff.2 hspan.ne_nil
    obtain ⟨ps, hps⟩ := exists_pieces looks (before ++ span) rest
    exact ⟨_, .placeholder hlooks hspan hps⟩
  · cases cs with
    | nil => exact ⟨[], .done⟩
    | cons c cs =>
      obtain ⟨ps, hps⟩ := exists_pieces looks (before ++ [c]) cs
      exact ⟨_, .character (fun hlooks path span rest hspan heq =>
        hfound ⟨hlooks, path, span, rest, hspan, heq⟩) hps⟩
termination_by cs.length
decreasing_by
  · subst cs
    simp only [List.length_append]
    omega
  · simp

/-- A text can be read in one way only. -/
theorem unique {ps' : List Piece} (h : Reads looks before cs ps) (h' : Reads looks before cs ps') :
    ps = ps' := by
  induction h generalizing ps' with
  | done =>
    generalize hcs : [] = cs at h'
    cases h' with
    | done => rfl
    | placeholder _ hspan _ => exact absurd (List.append_eq_nil_iff.1 hcs.symm).1 hspan.ne_nil
    | character _ _ => cases hcs
  | @placeholder before span rest path ps hlooks hspan _ ih =>
    generalize hcs : span ++ rest = cs at h'
    cases h' with
    | done => exact absurd (List.append_eq_nil_iff.1 hcs).1 hspan.ne_nil
    | placeholder _ hspan' hrest =>
      obtain ⟨rfl, rfl, rfl⟩ := hspan.unique hspan' hcs
      rw [ih hrest]
    | character hnone _ => exact absurd hcs.symm (hnone hlooks path span rest hspan)
  | @character before cs c ps hnone _ ih =>
    generalize hcs : c :: cs = cs' at h'
    cases h' with
    | done => cases hcs
    | placeholder hlooks hspan _ => exact absurd hcs (hnone hlooks _ _ _ hspan)
    | character _ hrest =>
      cases hcs
      rw [ih hrest]

/-- A placeholder of the text is found at its place iff one looks there. -/
theorem finds (h : Reads looks before cs ps) {front : List Char}
    (hcs : cs = front ++ (span ++ rest)) (hspan : Placeholder path span) :
    FoundAt ps front span path ↔ looks (before ++ front) := by
  symm
  induction h generalizing front with
  | done => simp [hspan.ne_nil] at hcs
  | @placeholder before span' rest' path' ps hlooks hspan' _ ih =>
    cases front with
    | nil =>
      obtain ⟨rfl, rfl, rfl⟩ := hspan'.unique hspan hcs
      rw [List.append_nil]
      exact iff_of_true hlooks ⟨[], ps, rfl, rfl⟩
    | cons c front =>
      obtain ⟨between, hfront, rfl⟩ := hspan'.apart hspan hcs (List.cons_ne_nil c front)
      rw [hfront, ← List.append_assoc, ih rfl]
      constructor
      · rintro ⟨ps₁, ps₂, rfl, rfl⟩
        exact ⟨_ :: ps₁, ps₂, rfl, rfl⟩
      · rintro ⟨_ | ⟨p, ps₁⟩, ps₂, hps, hbetween⟩
        · simp [hspan'.ne_nil] at hbetween
        · obtain ⟨rfl, rfl⟩ := List.cons.inj hps
          exact ⟨ps₁, ps₂, rfl, List.append_cancel_left hbetween⟩
  | @character before cs c ps hnone _ ih =>
    cases front with
    | nil =>
      rw [List.append_nil]
      refine iff_of_false (fun hlooks => hnone hlooks _ _ _ hspan hcs) ?_
      rintro ⟨_ | ⟨p, ps₁⟩, ps₂, hps, hfront⟩
      · cases hps
      · obtain ⟨rfl, -⟩ := List.cons.inj hps
        cases hfront
    | cons d front =>
      obtain ⟨rfl, htail⟩ := List.cons.inj hcs
      rw [List.append_cons, ih htail]
      constructor
      · rintro ⟨ps₁, ps₂, rfl, rfl⟩
        exact ⟨_ :: ps₁, ps₂, rfl, rfl⟩
      · rintro ⟨_ | ⟨p, ps₁⟩, ps₂, hps, hfront⟩
        · cases hps
        · obtain ⟨rfl, rfl⟩ := List.cons.inj hps
          exact ⟨ps₁, ps₂, rfl, (List.cons.inj hfront).2⟩

/-- If one looks at all placeholders, one may as well look everywhere. -/
theorem everywhere (h : Reads looks before cs ps) (hall : ∀ front path span rest,
    cs = front ++ (span ++ rest) → Placeholder path span → looks (before ++ front)) :
    Reads Everywhere before cs ps := by
  induction h with
  | done => exact .done
  | @placeholder before span rest path ps _ hspan _ ih =>
    refine .placeholder trivial hspan (ih fun front path' span' rest' hrest hspan' => ?_)
    rw [List.append_assoc]
    exact hall (span ++ front) path' span' rest' (by rw [hrest, List.append_assoc]) hspan'
  | @character before cs c ps hnone _ ih =>
    refine .character (fun _ path span rest hspan heq => ?_)
      (ih fun front path span rest hcs hspan => ?_)
    · have hlooks := hall [] path span rest heq hspan
      rw [List.append_nil] at hlooks
      exact hnone hlooks path span rest hspan heq
    · rw [← List.append_cons]
      exact hall (c :: front) path span rest (by rw [hcs, List.cons_append]) hspan

/-- Characters that are no opening braces are read one by one. -/
theorem literal (hspan : '{' ∉ span) (h : Reads looks (before ++ span) rest ps) :
    Reads looks before (span ++ rest) (span.map (fun c => .literal [c]) ++ ps) := by
  induction span generalizing before with
  | nil => simpa using h
  | cons c span ih =>
    obtain ⟨hc, hspan⟩ := not_or.1 (mt List.mem_cons.2 hspan)
    rw [List.append_cons] at h
    exact .character (fun _ _ _ _ hp => hp.ne_append_of_ne (Ne.symm hc)) (ih hspan h)

end Reads

/-! ## Where the scan looks -/

/-- How many opening braces a text ends in. -/
def braces (before : List Char) : Nat :=
  (before.rtakeWhile (· = '{')).length

/-- A text ends in an even number of opening braces. -/
def Paired (before : List Char) : Prop :=
  braces before % 2 = 0

theorem braces_brace (before : List Char) : braces (before ++ ['{']) = braces before + 1 := by
  rw [braces, List.rtakeWhile_concat_pos _ _ _ (by simp), List.length_append]
  rfl

theorem paired_of_ne (before : List Char) (hc : c ≠ '{') : Paired (before ++ [c]) := by
  rw [Paired, braces, List.rtakeWhile_concat_neg _ _ _ (by simpa using hc)]
  rfl

theorem paired_of_placeholder (before : List Char) (h : Placeholder path span) :
    Paired (before ++ span) := by
  obtain ⟨body, rfl, -⟩ := h.exists_body
  have heq : before ++ '{' :: '{' :: (body ++ ['}']) = (before ++ '{' :: '{' :: body) ++ ['}'] := by
    simp
  rw [heq]
  exact paired_of_ne _ (by decide)

theorem paired_of_not_mem (before : List Char) (hne : span ≠ []) (hspan : '{' ∉ span) :
    Paired (before ++ span) := by
  obtain ⟨front, c, rfl⟩ := List.eq_nil_or_concat span |>.resolve_left hne
  rw [List.concat_eq_append, ← List.append_assoc]
  exact paired_of_ne _ fun hc => hspan (by simp [hc])

/-- A placeholder of a text stands behind an odd number of opening braces. -/
def Hides (text : List Char) : Prop :=
  ∃ before path span rest, text = before ++ (span ++ rest) ∧ Placeholder path span ∧ ¬Paired before

/-- The pieces that a piece is read as character by character. -/
def Piece.characters : Piece → List Piece
  | .literal span => span.map fun c => .literal [c]
  | p => [p]

/-- The scan looks for placeholders behind an even number of opening braces. -/
theorem reads_scan (cs : List Char) (hbefore : Paired before) :
    Reads Paired before cs ((Piece.scan cs).flatMap Piece.characters) := by
  fun_induction Piece.scan cs generalizing before with
  | case1 => exact .done
  | case2 rest path after hbody _ ih =>
    obtain ⟨span, hspan, heq, htake⟩ := Grammar.bodyAfter?_span hbody
    rw [List.flatMap_cons, htake, heq]
    exact .placeholder hbefore hspan (ih (paired_of_placeholder before hspan))
  | case3 rest hbody ih =>
    have hnone : placeholder? ('{' :: '{' :: rest) = none := hbody
    have hodd : ¬Paired (before ++ ['{']) := by
      rw [Paired] at hbefore ⊢
      rw [braces_brace]
      omega
    have heven : Paired (before ++ ['{'] ++ ['{']) := by
      rw [Paired] at hbefore ⊢
      rw [braces_brace, braces_brace]
      omega
    exact .character (fun _ => Grammar.placeholder?_eq_none_iff.1 hnone)
      (.character (fun h => absurd h hodd) (ih heven))
  | case4 c rest hopen _ ih =>
    have hplain : '{' ∉ rest.takeWhile (· ≠ '{') := fun hmem => by
      simpa using List.mem_takeWhile_imp hmem
    have hsplit : rest.takeWhile (· ≠ '{') ++ rest.dropWhile (· ≠ '{') = rest :=
      List.takeWhile_append_dropWhile
    have hnone : ∀ path span rest', Placeholder path span → c :: rest ≠ span ++ rest' := by
      rintro path span rest' hspan heq
      obtain ⟨body, rfl, -⟩ := hspan.exists_body
      obtain ⟨rfl, rfl⟩ := List.cons.inj heq
      exact hopen _ rfl rfl
    -- behind a single brace the text ends, or goes on with another character
    have hpaired : Paired (before ++ [c] ++ rest.takeWhile (· ≠ '{')) ∨
        rest.dropWhile (· ≠ '{') = [] := by
      by_cases hspan : rest.takeWhile (· ≠ '{') = []
      · rw [hspan, List.append_nil]
        by_cases hc : c = '{'
        · refine .inr ?_
          cases rest with
          | nil => rfl
          | cons d rest =>
            have hd : d = '{' := by
              by_contra hd
              rw [List.takeWhile_cons_of_pos (by simpa using hd)] at hspan
              cases hspan
            exact (hopen rest hc (by rw [hd])).elim
        · exact .inl (paired_of_ne before hc)
      · exact .inl (paired_of_not_mem _ hspan hplain)
    have hrest : Reads Paired (before ++ [c] ++ rest.takeWhile (· ≠ '{'))
        (rest.dropWhile (· ≠ '{'))
        ((Piece.scan (rest.dropWhile (· ≠ '{'))).flatMap Piece.characters) := by
      rcases hpaired with hpaired | hend
      · exact ih hpaired
      · rw [hend, Piece.scan]
        exact .done
    have hread := hrest.literal hplain
    rw [hsplit] at hread
    exact .character (fun _ => hnone) hread

-- behind the failed attempt at the first of three braces, the second one is jumped over
example : Piece.scan "\x7b\x7b\x7ba\x7d\x7d".toList =
    [.literal ['{', '{'], .literal ['{', 'a', '}', '}']] := by
  cbv

/-! ## Values character by character -/

variable {s : Sources} {h : Heap} {v : Value}

theorem written_literals {t : String} :
    Written s h (span.map (fun c => .literal [c]) ++ ps) t ↔
      Written s h (.literal span :: ps) t := by
  induction span generalizing t with
  | nil =>
    constructor
    · intro ht
      rw [← String.empty_append (s := t)]
      exact .literal [] ht
    · rintro (_ | ⟨_, ht⟩)
      rwa [String.ofList_nil, String.empty_append]
  | cons c span ih =>
    have hcons (t : String) : String.ofList (c :: span) ++ t =
        String.ofList [c] ++ (String.ofList span ++ t) := by
      rw [← String.append_assoc, ← String.ofList_append]
      rfl
    constructor
    · rintro (_ | ⟨_, htail⟩)
      cases ih.1 htail with
      | literal _ hrest =>
        rw [← hcons]
        exact .literal (c :: span) hrest
    · rintro (_ | ⟨_, hrest⟩)
      rw [hcons]
      exact .literal [c] (ih.2 (.literal span hrest))

theorem written_characters {t : String} :
    Written s h (ps.flatMap Piece.characters) t ↔ Written s h ps t := by
  induction ps generalizing t with
  | nil => rfl
  | cons p ps ih =>
    cases p with
    | literal span =>
      rw [List.flatMap_cons, Piece.characters, written_literals]
      constructor
      · rintro (_ | ⟨_, ht⟩)
        exact .literal span (ih.1 ht)
      · rintro (_ | ⟨_, ht⟩)
        exact .literal span (ih.2 ht)
    | placeholder span path =>
      constructor
      · rintro (_ | _ | ⟨hnone, ht⟩ | ⟨hsome, hx, ht⟩)
        · exact .verbatim hnone (ih.1 ht)
        · exact .value hsome hx (ih.1 ht)
      · rintro (_ | _ | ⟨hnone, ht⟩ | ⟨hsome, hx, ht⟩)
        · exact .verbatim hnone (ih.2 ht)
        · exact .value hsome hx (ih.2 ht)

/-- The scan makes no empty piece. -/
theorem span_ne_nil_of_scan {p : Piece} (cs : List Char) (hp : p ∈ Piece.scan cs) :
    p.span ≠ [] := by
  fun_induction Piece.scan cs with
  | case1 => cases hp
  | case2 rest path after hbody _ ih =>
    rcases List.mem_cons.1 hp with rfl | hp
    · have hlength := bodyAfter?_length hbody
      refine List.ne_nil_of_length_pos ?_
      simp only [Piece.span, List.length_take, List.length_cons]
      omega
    · exact ih hp
  | case3 rest _ ih =>
    rcases List.mem_cons.1 hp with rfl | hp
    · exact List.cons_ne_nil _ _
    · exact ih hp
  | case4 c rest _ _ ih =>
    rcases List.mem_cons.1 hp with rfl | hp
    · exact List.cons_ne_nil _ _
    · exact ih hp

theorem characters_eq_nil (hne : ∀ p ∈ ps, p.span ≠ []) (hps : ps.flatMap Piece.characters = []) :
    ps = [] := by
  refine List.eq_nil_iff_forall_not_mem.2 fun p hp => ?_
  have hp' := List.flatMap_eq_nil_iff.1 hps p hp
  cases p with
  | literal span => exact hne _ hp (List.map_eq_nil_iff.1 hp')
  | placeholder span path => cases hp'

theorem stands_characters (hne : ∀ p ∈ ps, p.span ≠ []) :
    Stands s h (ps.flatMap Piece.characters) v ↔ Stands s h ps v := by
  constructor
  · rintro ⟨span, path, heq, hv⟩
    refine ⟨span, path, ?_, hv⟩
    obtain _ | ⟨p, ps⟩ := ps
    · cases heq
    cases p with
    | literal span' =>
      obtain ⟨c, span', rfl⟩ := List.exists_cons_of_ne_nil (hne _ List.mem_cons_self)
      cases heq
    | placeholder span' path' =>
      obtain ⟨hp, hps⟩ := List.cons.inj heq
      rw [hp, characters_eq_nil (fun p hp => hne p (List.mem_cons_of_mem _ hp)) hps]
  · rintro ⟨span, path, rfl, hv⟩
    exact ⟨span, path, rfl, hv⟩

theorem filled_characters (hne : ∀ p ∈ ps, p.span ≠ []) :
    Filled s h (ps.flatMap Piece.characters) v ↔ Filled s h ps v := by
  constructor
  · rintro (hv | ⟨hmany, ht⟩)
    · exact .value ((stands_characters hne).1 hv)
    · exact .text (fun w hw => hmany w ((stands_characters hne).2 hw)) (written_characters.1 ht)
  · rintro (hv | ⟨hmany, ht⟩)
    · exact .value ((stands_characters hne).2 hv)
    · exact .text (fun w hw => hmany w ((stands_characters hne).1 hw)) (written_characters.2 ht)

/-! ## What a text becomes -/

/-- What is found behind an even number of braces is all that there is, unless something hides. -/
theorem Reads.eq_iff_not_hides {every : List Piece} (hps : Reads Paired [] cs ps)
    (hevery : Reads Everywhere [] cs every) : ps = every ↔ ¬Hides cs := by
  constructor
  · rintro rfl ⟨before, path, span, rest, heq, hspan, hodd⟩
    exact hodd ((hps.finds heq hspan).1 ((hevery.finds heq hspan).2 trivial))
  · intro hhides
    refine unique (hps.everywhere fun front path span rest heq hspan => ?_) hevery
    by_contra hodd
    exact hhides ⟨front, path, span, rest, heq, hspan, hodd⟩

/-- **What a text becomes.** A text is read from left to right, with placeholders looked for behind
    an even number of opening braces, and becomes what its pieces make of it.  To look everywhere
    would find all its placeholders; the scan finds those behind an even number of braces, and so
    reads the text in the same way unless a placeholder hides behind an odd number of them. -/
theorem resolveText_reads (text : String) :
    ∃ ps every, Reads Paired [] text.toList ps ∧ Reads Everywhere [] text.toList every ∧
      (∀ s h v, resolveText s h text = .ok v ↔ Filled s h ps v) ∧
      (∀ before path span rest, text.toList = before ++ (span ++ rest) → Placeholder path span →
        FoundAt every before span path ∧ (FoundAt ps before span path ↔ Paired before)) ∧
      (ps = every ↔ ¬Hides text.toList) := by
  have hps : Reads Paired [] text.toList _ := reads_scan text.toList rfl
  obtain ⟨every, hevery⟩ := Reads.exists_pieces Everywhere [] text.toList
  refine ⟨_, every, hps, hevery, fun s h v => ?_, fun before path span rest heq hspan => ?_,
    hps.eq_iff_not_hides hevery⟩
  · rw [resolveText_eq_ok_iff, filled_characters fun p hp => span_ne_nil_of_scan _ hp]
  · exact ⟨(hevery.finds heq hspan).2 trivial, hps.finds heq hspan⟩

end Rulebook.Template
