import SqlCodeGenerator.NullLiterals
import SqlCodeGenerator.StatementSplitting

/-!
# Where strings begin and end

The splitting loop of `parse_batch` and the scanners of `parse_insert_statement`
read the same characters, and each has its own idea of where a string stands.

* `textMarks`: what the parser takes each position of a statement for, with the
  places at which `parse_value` is called.
* `splitBits`: the bit `in_string` of the splitting loop at each position.
* `SplitsAsRead`: the two agree on the whole text.
* `QuotesPlain`: the texts they agree on, described without either of them.

Both scanners stand outside strings at the beginning of a statement, so the proof
follows the parser from place to place and carries "the loop is outside strings".
-/

namespace SqlCodeGenerator

open Library

/-! ## What the parser takes a position for -/

/-- What a position of a statement is for the parser.  The two apostrophes of a
doubled one are passed in one step, so the parser never stands between them. -/
inductive Mark where
  | outside
  | inside
  | between
  deriving DecidableEq

/-- Does the bit of the splitting loop agree with the mark?  Nothing outside a
literal is a string, the characters of a quoted identifier included. -/
def Mark.Allows : Mark → Bool → Prop
  | outside, bit => bit = false
  | inside, bit => bit = true
  | between, _ => True

instance (m : Mark) (bit : Bool) : Decidable (m.Allows bit) := by
  cases m with
  | outside => exact inferInstanceAs (Decidable (bit = false))
  | inside => exact inferInstanceAs (Decidable (bit = true))
  | between => exact inferInstanceAs (Decidable True)

/-- The positions of a quoted text from behind its opening apostrophe to its closing
one, as `quotedText` reads it. -/
def quotedMarks : CString → List Mark
  | [] => []
  | c :: p =>
      if c = apostrophe then
        match p with
        | [] => [.inside]
        | d :: q => if d = apostrophe then .inside :: .between :: quotedMarks q else [.inside]
      else
        .inside :: quotedMarks p

theorem quotedMarks_cons {c : CChar} (hc : c ≠ apostrophe) (p : CString) :
    quotedMarks (c :: p) = .inside :: quotedMarks p := by
  rw [quotedMarks.eq_def]
  simp [hc]

theorem quotedMarks_doubled (p : CString) :
    quotedMarks (apostrophe :: apostrophe :: p) = .inside :: .between :: quotedMarks p := by
  rw [quotedMarks.eq_def]
  simp

theorem quotedMarks_close {p : CString} (hp : p.head? ≠ some apostrophe) :
    quotedMarks (apostrophe :: p) = [.inside] := by
  rw [quotedMarks.eq_def]
  cases p with
  | nil => simp
  | cons d q =>
      have hd : d ≠ apostrophe := by simpa using hp
      simp [hd]

/-- The positions of a text that does not end at once begin inside the literal. -/
theorem quotedMarks_head? {p : CString} (hp : p ≠ []) : (quotedMarks p).head? = some .inside := by
  induction p using quotedText_induction with
  | nil => exact absurd rfl hp
  | char c p hc => rw [quotedMarks_cons hc, List.head?_cons]
  | doubled p => rw [quotedMarks_doubled, List.head?_cons]
  | close p hclose => rw [quotedMarks_close hclose, List.head?_cons]

/-- The positions that `parse_value` passes from a place. -/
def valueMarks (place : CString) : List Mark :=
  match skipWs place with
  | [] => List.replicate place.length .outside
  | c :: q =>
      if c = apostrophe then
        List.replicate (place.length - q.length) .outside ++ quotedMarks q
      else
        List.replicate (place.length - (parseValue place).2.length) .outside

/-- The positions of a text, its end included, where `parse_value` is called at the
given places. -/
def textMarks : CString → List CString → List Mark
  | p, [] => List.replicate (p.length + 1) .outside
  | p, place :: places =>
      List.replicate (p.length - place.length) .outside ++ valueMarks place ++
        textMarks (parseValue place).2 places

/-- `StatementMarks tables text marks`: a text between two cuts is blank, or the
parser reads it as a statement; its positions are `marks`. -/
inductive StatementMarks (tables : Tables) (text : CString) : List Mark → Prop
  | blank (hblank : skipWs (trimInplace text) = []) :
      StatementMarks tables text (List.replicate (text.length + 1) .outside)
  | insert {r : Reading} {placess : List (List CString)} (hr : r.Of tables (trimInplace text))
      (hplaces : TuplesPlaces (r.values.drop 6) placess) :
      StatementMarks tables text (textMarks (text.rdropWhile isSpace) placess.flatten ++
        List.replicate (text.rtakeWhile isSpace).length .outside)

/-! ## What the splitting loop takes a position for -/

/-- The bit `in_string` at every position of a text, its end included. -/
def splitBits : SplitState → CString → List Bool
  | s, [] => [s.inString]
  | s, c :: p => s.inString :: splitBits (splitStep s c) p

/-- The splitting loop takes the positions of a text for what the parser takes them
for, in each of the statements it cuts. -/
def SplitsAsRead (tables : Tables) (sql : CString) : Prop :=
  ∃ markss, List.Forall₂ (StatementMarks tables) (splitStatements sql) markss ∧
    List.Forall₂ Mark.Allows markss.flatten (splitBits splitStart sql)

/-! ## The texts on which they agree -/

/-- Does the text go on with a character other than an apostrophe? -/
def GoesOn (text : CString) : Prop := ∃ d ∈ text.head?, d ≠ apostrophe

/-- No backslash stands at the end of the text or before an apostrophe in it. -/
def EscapeFree : CString → Prop
  | [] => True
  | c :: rest => (c = backslash → GoesOn rest) ∧ EscapeFree rest

instance (text : CString) : Decidable (GoesOn text) :=
  inferInstanceAs (Decidable (∃ d ∈ text.head?, d ≠ apostrophe))

instance decidableEscapeFree : DecidablePred EscapeFree
  | [] => isTrue trivial
  | c :: rest =>
      have := decidableEscapeFree rest
      inferInstanceAs (Decidable ((c = backslash → GoesOn rest) ∧ EscapeFree rest))

/-- A literal whose apostrophes the splitting loop counts as the parser does. -/
def Written.SplitPlain : Written → Prop
  | .quoted content => EscapeFree content
  | .bare text _ => unescapedApostrophes text = 0

/-- A blank text, or a statement in which every apostrophe in front of the values or
in a bare value stands directly behind a backslash, and no quoted value has a
backslash at its end or before an apostrophe. -/
inductive StatementPlain (tables : Tables) (text : CString) : Prop
  | blank (hblank : skipWs (trimInplace text) = [])
  | insert {r : Reading} {front : CString} {tuples : List (List Written)}
      (hr : r.Of tables (trimInplace text)) (htuples : TuplesWritten (r.values.drop 6) tuples)
      (hsplit : text.rdropWhile isSpace = front ++ r.values.drop 6)
      (hfront : unescapedApostrophes front = 0)
      (hvalues : ∀ ws ∈ tuples, ∀ w ∈ ws, w.SplitPlain)

/-- The text is a sequence of such statements with semicolons between them. -/
def QuotesPlain (tables : Tables) (sql : CString) : Prop :=
  ∃ texts, sql = List.intercalate [semicolon] texts ∧ ∀ text ∈ texts, StatementPlain tables text

/-! ## Positions outside literals -/

section Positions

variable {s : SplitState} {marks : List Mark}

/-- The bit of the first position is that of the state. -/
theorem splitBits_eq_cons (s : SplitState) (p : CString) :
    ∃ bits, splitBits s p = s.inString :: bits := by
  cases p with
  | nil => exact ⟨[], rfl⟩
  | cons c p => exact ⟨_, rfl⟩

/-- Inside a string the loop does not agree with a position outside. -/
theorem not_forall₂_of_inString (hin : s.inString = true) (hmarks : marks.head? = some .outside)
    (p : CString) : ¬ List.Forall₂ Mark.Allows marks (splitBits s p) := by
  obtain ⟨bits, hbits⟩ := splitBits_eq_cons s p
  rw [hbits, hin, List.eq_cons_of_mem_head? hmarks, List.forall₂_cons]
  rintro ⟨hallows, -⟩
  cases hallows

/-- Positions outside literals: the loop stays outside strings as far as it counts no
apostrophe. -/
theorem forall₂_outside_iff (hout : s.inString = false) (hmarks : marks.head? = some .outside)
    (seg p : CString) :
    List.Forall₂ Mark.Allows (List.replicate seg.length .outside ++ marks)
        (splitBits s (seg ++ p)) ↔
      unescapedFrom s.previous seg = 0 ∧
        List.Forall₂ Mark.Allows marks (splitBits (seg.foldl splitStep s) p) := by
  induction seg generalizing s with
  | nil => simp [unescapedFrom]
  | cons c seg ih =>
      rw [List.length_cons, List.replicate_succ, List.cons_append, List.cons_append, splitBits,
        List.forall₂_cons, unescapedFrom, List.foldl_cons]
      have hhere : Mark.outside.Allows s.inString := hout
      rw [and_iff_right hhere]
      by_cases htoggles : c = apostrophe ∧ s.previous ≠ some backslash
      · -- the apostrophe turns the bit on, and the next position is outside
        have hin : (splitStep s c).inString = true := by
          simp [splitStep, htoggles, hout]
        have hnext : (List.replicate seg.length Mark.outside ++ marks).head? =
            some Mark.outside := by
          cases seg with
          | nil => exact hmarks
          | cons d seg => rfl
        rw [if_pos htoggles]
        exact iff_of_false (not_forall₂_of_inString hin hnext _) (fun h => by omega)
      · have hout' : (splitStep s c).inString = false := by
          simp [splitStep, htoggles, hout]
        rw [if_neg htoggles, Nat.zero_add]
        exact ih hout'

/-- A text without counted apostrophes, to its end. -/
theorem forall₂_outside_end (hout : s.inString = false) {p : CString}
    (hzero : unescapedFrom s.previous p = 0) :
    List.Forall₂ Mark.Allows (List.replicate (p.length + 1) .outside) (splitBits s p) := by
  have hbits := @forall₂_outside_iff s [.outside] hout rfl p []
  have hlast : (p.foldl splitStep s).inString = false := by
    rw [inString_foldl_splitStep, hzero, hout]
    rfl
  rw [List.append_nil, ← List.replicate_succ', hzero, and_iff_right rfl] at hbits
  exact hbits.mpr (.cons hlast .nil)

/-! ## The positions of a quoted text -/

/-- The positions of a quoted text: the loop stays inside the string up to its closing
apostrophe as far as no backslash stands before an apostrophe of it. -/
theorem forall₂_quotedMarks_iff (hin : s.inString = true) (hmarks : marks.head? = some .outside)
    {q : CString} (hclosed : (quotedText q).2 ≠ []) :
    List.Forall₂ Mark.Allows (quotedMarks q ++ marks) (splitBits s q) ↔
      (s.previous = some backslash → GoesOn (quotedText q).1) ∧ EscapeFree (quotedText q).1 ∧
        List.Forall₂ Mark.Allows marks (splitBits ⟨false, some apostrophe⟩ (quotedText q).2) := by
  have hinside : ∀ {t : SplitState}, t.inString = true → Mark.inside.Allows t.inString := id
  induction q using quotedText_induction generalizing s with
  | nil => exact absurd rfl hclosed
  | char c p hc ih =>
      rw [quotedText_cons hc] at hclosed ⊢
      have hstep : splitStep s c = ⟨true, some c⟩ := by
        simp [splitStep, hc, hin]
      have hgoes : GoesOn (c :: (quotedText p).1) := ⟨c, rfl, hc⟩
      have hescape : EscapeFree (c :: (quotedText p).1) ↔
          (some c = some backslash → GoesOn (quotedText p).1) ∧ EscapeFree (quotedText p).1 := by
        rw [EscapeFree, Option.some.injEq]
      have htail : List.Forall₂ _ _ _ ↔ _ := ih (s := ⟨true, some c⟩) rfl hclosed
      rw [quotedMarks_cons hc, List.cons_append, splitBits, List.forall₂_cons, hstep, htail,
        and_iff_right (hinside hin), hescape, and_assoc]
      exact (and_iff_right fun _ => hgoes).symm
  | doubled p ih =>
      rw [quotedText_doubled] at hclosed ⊢
      have hsecond : ∀ bit, splitStep ⟨bit, some apostrophe⟩ apostrophe =
          ⟨!bit, some apostrophe⟩ := by
        intro bit
        simp [splitStep, (by decide : apostrophe ≠ backslash)]
      have hescape : EscapeFree (apostrophe :: (quotedText p).1) ↔ EscapeFree (quotedText p).1 := by
        rw [EscapeFree]
        exact and_iff_right fun h => absurd h (by decide)
      have hstops : ¬ GoesOn (apostrophe :: (quotedText p).1) := by
        rintro ⟨d, hd, hne⟩
        exact hne (Option.some.inj hd).symm
      have hbetween : Mark.between.Allows (splitStep s apostrophe).inString := trivial
      have hp : p ≠ [] := by
        rintro rfl
        exact hclosed rfl
      rw [quotedMarks_doubled, List.cons_append, List.cons_append, splitBits, List.forall₂_cons,
        splitBits, List.forall₂_cons, and_iff_right (hinside hin), and_iff_right hbetween, hescape,
        imp_iff_not hstops]
      by_cases hprevious : s.previous = some backslash
      · -- the first of the two does not count, so the second ends the string
        have hfirst : splitStep s apostrophe = ⟨true, some apostrophe⟩ := by
          simp [splitStep, hprevious, hin]
        obtain ⟨bits, hbits⟩ := splitBits_eq_cons ⟨!true, some apostrophe⟩ p
        rw [hfirst, hsecond, hbits, List.eq_cons_of_mem_head? (quotedMarks_head? hp),
          List.cons_append, List.forall₂_cons]
        exact iff_of_false (fun h => absurd h.1 Bool.false_ne_true) (fun h => h.1 hprevious)
      · have hfirst : splitStep s apostrophe = ⟨false, some apostrophe⟩ := by
          simp [splitStep, hprevious, hin]
        have htail : List.Forall₂ _ _ _ ↔ _ := ih (s := ⟨true, some apostrophe⟩) rfl hclosed
        rw [hfirst, hsecond, Bool.not_false, htail, and_iff_right hprevious]
        exact and_iff_right fun h => absurd h (by decide)
  | close p hp =>
      rw [quotedText_close hp] at hclosed ⊢
      have hstops : ¬ GoesOn [] := by
        rintro ⟨d, hd, -⟩
        cases hd
      have hempty : EscapeFree [] := trivial
      rw [quotedMarks_close hp, List.cons_append, List.nil_append, splitBits, List.forall₂_cons,
        and_iff_right (hinside hin), imp_iff_not hstops, and_iff_right hempty]
      by_cases hprevious : s.previous = some backslash
      · have hstep : (splitStep s apostrophe).inString = true := by
          simp [splitStep, hprevious, hin]
        exact iff_of_false (not_forall₂_of_inString hstep hmarks p) (fun h => h.1 hprevious)
      · have hstep : splitStep s apostrophe = ⟨false, some apostrophe⟩ := by
          simp [splitStep, hprevious, hin]
        rw [hstep, and_iff_right hprevious]

end Positions

/-! ## The positions of a text with places -/

/-- The places follow each other in the text, each behind the value at the one
before. -/
def PlacesIn : CString → List CString → Prop
  | _, [] => True
  | p, place :: places => place.length ≤ p.length ∧ PlacesIn (parseValue place).2 places

theorem PlacesIn.mono {p p' : CString} {places : List CString} (h : PlacesIn p places)
    (hle : p.length ≤ p'.length) : PlacesIn p' places := by
  cases places with
  | nil => trivial
  | cons place places => exact ⟨h.1.trans hle, h.2⟩

theorem TuplePlaces.placesIn {p after : CString} {places more : List CString}
    (h : TuplePlaces p places after) (hmore : PlacesIn after more) :
    PlacesIn p (places ++ more) := by
  induction h with
  | close rest => exact hmore.mono (Nat.le_succ _)
  | @value p next rest places hne hopen hsep hrest ih =>
      have hskip := length_skipWs_le (parseValue p).2
      rw [hsep, List.length_cons] at hskip
      exact ⟨Nat.le_refl _, (ih hmore).mono (by omega)⟩
  | @last p rest hne hopen hsep =>
      have hskip := length_skipWs_le (parseValue p).2
      rw [hsep, List.length_cons] at hskip
      exact ⟨Nat.le_refl _, hmore.mono (by omega)⟩

theorem TuplesPlaces.placesIn {p : CString} {tuples : List (List CString)}
    (h : TuplesPlaces p tuples) : PlacesIn p tuples.flatten := by
  induction h with
  | done hend => trivial
  | @comma p rest tuples hsep hrest ih =>
      have hskip := length_skipWs_le p
      rw [hsep, List.length_cons] at hskip
      exact ih.mono (by omega)
  | @tuple p rest after places tuples hopen htuple hrest ih =>
      have hskip := length_skipWs_le p
      rw [hopen, List.length_cons] at hskip
      exact (htuple.placesIn ih).mono (by omega)

/-- The value at a place begins behind the white space there. -/
theorem exists_blanks_skipWs (p : CString) :
    ∃ blanks, p = blanks ++ skipWs p ∧ ∀ c ∈ blanks, isSpace c = true :=
  ⟨p.takeWhile isSpace, List.takeWhile_append_dropWhile.symm, fun _ hc => List.mem_takeWhile_imp hc⟩

theorem ne_apostrophe_of_isSpace {c : CChar} (h : isSpace c = true) : c ≠ apostrophe := by
  rintro rfl
  exact absurd h (by decide)

theorem ne_backslash_of_isSpace {c : CChar} (h : isSpace c = true) : c ≠ backslash := by
  rintro rfl
  exact absurd h (by decide)

/-- The positions begin outside literals. -/
theorem textMarks_head? (p : CString) (places : List CString) :
    (textMarks p places).head? = some .outside := by
  induction places generalizing p with
  | nil => rfl
  | cons place places ih =>
      rw [textMarks, List.append_assoc]
      cases hfront : p.length - place.length with
      | succ n => rfl
      | zero =>
          show (valueMarks place ++ textMarks (parseValue place).2 places).head? = _
          unfold valueMarks
          split
          · cases place with
            | nil => exact ih _
            | cons c place => rfl
          · next c q hskip =>
              have hlen := length_skipWs_le place
              rw [hskip, List.length_cons] at hlen
              split
              · obtain ⟨n, hn⟩ := Nat.exists_eq_add_of_lt (Nat.lt_of_succ_le hlen)
                rw [show place.length - q.length = n + 1 by omega]
                rfl
              · cases hvalue : place.length - (parseValue place).2.length with
                | zero => exact ih _
                | succ n => rfl

/-- In front of the places all is outside. -/
theorem textMarks_append (seg : CString) {p : CString} {places : List CString}
    (h : PlacesIn p places) :
    textMarks (seg ++ p) places = List.replicate seg.length .outside ++ textMarks p places := by
  cases places with
  | nil =>
      rw [textMarks, textMarks, List.length_append, List.replicate_append_replicate, Nat.add_assoc]
  | cons place places =>
      have hlen : (seg ++ p).length - place.length = seg.length + (p.length - place.length) := by
        have hle := h.1
        rw [List.length_append]
        omega
      rw [textMarks, textMarks, hlen, ← List.replicate_append_replicate]
      simp only [List.append_assoc]

/-! ## Apostrophes between white space -/

theorem unescapedFrom_congr {previous previous' : Option CChar}
    (h : previous = some backslash ↔ previous' = some backslash) (p : CString) :
    unescapedFrom previous p = unescapedFrom previous' p := by
  cases p with
  | nil => rfl
  | cons c p => simp only [unescapedFrom, ne_eq, h]

theorem unescapedFrom_blanks_append {blanks : CString} (h : ∀ c ∈ blanks, isSpace c = true)
    {previous : Option CChar} (hprevious : previous ≠ some backslash) (p : CString) :
    unescapedFrom previous (blanks ++ p) = unescapedApostrophes p := by
  induction blanks generalizing previous with
  | nil => exact unescapedFrom_congr (iff_of_false hprevious (by simp)) p
  | cons c blanks ih =>
      have hc := h c List.mem_cons_self
      have hnext : some c ≠ some backslash :=
        fun hsame => ne_backslash_of_isSpace hc (Option.some.inj hsame)
      rw [List.cons_append, unescapedFrom, if_neg fun hboth => ne_apostrophe_of_isSpace hc hboth.1,
        Nat.zero_add]
      exact ih (fun d hd => h d (List.mem_cons_of_mem c hd)) hnext

theorem unescapedFrom_append_blanks {blanks : CString} (h : ∀ c ∈ blanks, isSpace c = true)
    (previous : Option CChar) (p : CString) :
    unescapedFrom previous (p ++ blanks) = unescapedFrom previous p := by
  induction p generalizing previous with
  | nil =>
      have hno : apostrophe ∉ blanks := fun hmem => ne_apostrophe_of_isSpace (h _ hmem) rfl
      rw [List.nil_append, unescapedFrom_eq_zero hno, unescapedFrom]
  | cons c p ih => rw [List.cons_append, unescapedFrom, unescapedFrom, ih]

/-- Outside strings the loop reads white space and a separator. -/
theorem foldl_splitStep_separator {s : SplitState} (hout : s.inString = false)
    {blanks : CString} {d : CChar} (hno : apostrophe ∉ blanks ++ [d]) :
    (blanks ++ [d]).foldl splitStep s = ⟨false, some d⟩ := by
  have hbit := inString_foldl_splitStep s (blanks ++ [d])
  rw [unescapedFrom_eq_zero hno, hout] at hbit
  rw [List.foldl_append] at hbit ⊢
  exact congrArg (fun bit => (⟨bit, some d⟩ : SplitState)) hbit

/-! ## The parser's way through the values -/

section Values

variable {s : SplitState} {places : List CString}

/-- White space and a separator are outside literals. -/
theorem forall₂_separator_iff (hout : s.inString = false) {p next : CString} {d : CChar}
    (hsep : skipWs p = d :: next) (hd : d ≠ apostrophe) (hplaces : PlacesIn next places) :
    List.Forall₂ Mark.Allows (textMarks p places) (splitBits s p) ↔
      List.Forall₂ Mark.Allows (textMarks next places) (splitBits ⟨false, some d⟩ next) := by
  obtain ⟨blanks, hp, hblanks⟩ := exists_blanks_skipWs p
  have hno : apostrophe ∉ blanks ++ [d] := by
    intro hmem
    rcases List.mem_append.mp hmem with hblank | hlast
    · exact ne_apostrophe_of_isSpace (hblanks _ hblank) rfl
    · exact hd (List.mem_singleton.mp hlast).symm
  have hsplit : p = (blanks ++ [d]) ++ next := by
    rw [hsep] at hp
    rw [hp, List.append_assoc, List.singleton_append]
  rw [hsplit, textMarks_append _ hplaces,
    forall₂_outside_iff hout (textMarks_head? next places), unescapedFrom_eq_zero hno,
    foldl_splitStep_separator hout hno]
  exact and_iff_right rfl

/-- Behind white space the loop is as before it. -/
theorem foldl_splitStep_blanks (hout : s.inString = false) (hprevious : s.previous ≠ some backslash)
    {blanks : CString} (h : ∀ c ∈ blanks, isSpace c = true) :
    (blanks.foldl splitStep s).inString = false ∧
      (blanks.foldl splitStep s).previous ≠ some backslash := by
  induction blanks generalizing s with
  | nil => exact ⟨hout, hprevious⟩
  | cons c blanks ih =>
      have hc := h c List.mem_cons_self
      have hstep : splitStep s c = ⟨s.inString, some c⟩ := by
        rw [splitStep, if_neg fun hboth => ne_apostrophe_of_isSpace hc hboth.1]
      have hnext : some c ≠ some backslash :=
        fun hsame => ne_backslash_of_isSpace hc (Option.some.inj hsame)
      rw [List.foldl_cons, hstep]
      exact ih hout hnext fun d hd => h d (List.mem_cons_of_mem c hd)

/-- The positions of a value in quotes, which stands behind white space. -/
theorem forall₂_quoted_iff (hout : s.inString = false) (hprevious : s.previous ≠ some backslash)
    {blanks q : CString} (hblanks : ∀ c ∈ blanks, isSpace c = true)
    (hclosed : (quotedText q).2 ≠ []) {marks : List Mark} (hmarks : marks.head? = some .outside) :
    List.Forall₂ Mark.Allows
        (List.replicate (blanks.length + 1) .outside ++ (quotedMarks q ++ marks))
        (splitBits s (blanks ++ apostrophe :: q)) ↔
      EscapeFree (quotedText q).1 ∧
        List.Forall₂ Mark.Allows marks (splitBits ⟨false, some apostrophe⟩ (quotedText q).2) := by
  have hzero : unescapedFrom s.previous blanks = 0 :=
    unescapedFrom_eq_zero (fun hmem => ne_apostrophe_of_isSpace (hblanks _ hmem) rfl) _
  obtain ⟨hbit, hlast⟩ := foldl_splitStep_blanks hout hprevious hblanks
  have hopen : splitStep (blanks.foldl splitStep s) apostrophe = ⟨true, some apostrophe⟩ := by
    rw [splitStep, if_pos ⟨rfl, hlast⟩, hbit, Bool.not_false]
  have hallows : Mark.outside.Allows (blanks.foldl splitStep s).inString := hbit
  have htext := forall₂_quotedMarks_iff (s := ⟨true, some apostrophe⟩) rfl hmarks hclosed
  rw [List.replicate_succ', List.append_assoc, List.singleton_append,
    forall₂_outside_iff hout rfl, hzero, and_iff_right rfl, splitBits, List.forall₂_cons,
    and_iff_right hallows, hopen, htext]
  exact and_iff_right fun h => absurd h (by decide)

/-- The apostrophes of a bare value are those of its text without the white space
behind it. -/
theorem unescapedFrom_bare {previous : Option CChar} (hprevious : previous ≠ some backslash)
    {blanks text : CString} (hblanks : ∀ c ∈ blanks, isSpace c = true)
    (htext : ∀ c ∈ text.head?, isSpace c = false) :
    unescapedFrom previous (blanks ++ text) = unescapedApostrophes (trimInplace text) := by
  obtain ⟨behind, hbehind⟩ := exists_blanks_of_trimInplace htext
  have hwhole := unescapedFrom_append_blanks behind.blank none (trimInplace text)
  rw [unescapedFrom_blanks_append hblanks hprevious, unescapedApostrophes]
  conv_lhs => rw [hbehind]
  exact hwhole

/-- The positions of a value and of the separator behind it. -/
theorem forall₂_value_iff (hout : s.inString = false) (hprevious : s.previous ≠ some backslash)
    {p next : CString} {d : CChar} (hsep : skipWs (parseValue p).2 = d :: next)
    (hd : d ≠ apostrophe) (hplaces : PlacesIn next places) :
    List.Forall₂ Mark.Allows (textMarks p (p :: places)) (splitBits s p) ↔
      (writtenAt p).SplitPlain ∧
        List.Forall₂ Mark.Allows (textMarks next places) (splitBits ⟨false, some d⟩ next) := by
  have hbehind : (parseValue p).2 ≠ [] := ne_nil_of_skipWs_ne_nil (by simp [hsep])
  have hhead := textMarks_head? (parseValue p).2 places
  have hvalue : (parseValue p).2 = (valueText (skipWs p)).2 := rfl
  obtain ⟨blanks, hp, hblanks⟩ := exists_blanks_skipWs p
  rw [textMarks, Nat.sub_self, List.replicate_zero, List.nil_append]
  cases hskip : skipWs p with
  | nil =>
      rw [hvalue, hskip] at hbehind
      exact absurd rfl hbehind
  | cons c q =>
      rw [hskip] at hp hvalue
      by_cases hc : c = apostrophe
      · subst hc
        have hafter : (parseValue p).2 = (quotedText q).2 := by
          rw [hvalue, valueText, if_pos rfl]
        have hlen : p.length - q.length = blanks.length + 1 := by
          rw [hp, List.length_append, List.length_cons]
          omega
        have hmarks : valueMarks p =
            List.replicate (blanks.length + 1) .outside ++ quotedMarks q := by
          unfold valueMarks
          rw [hskip]
          dsimp only
          rw [if_pos rfl, hlen]
        have hwritten : (writtenAt p).SplitPlain ↔ EscapeFree (quotedText q).1 := by
          unfold writtenAt
          rw [hskip]
          dsimp only
          rw [if_pos rfl]
          exact Iff.rfl
        rw [hafter] at hbehind hhead hsep
        rw [hmarks, hwritten, hafter, List.append_assoc]
        conv_lhs => rw [hp]
        rw [forall₂_quoted_iff hout hprevious hblanks hbehind hhead,
          forall₂_separator_iff rfl hsep hd hplaces]
      · have hafter : (parseValue p).2 = (c :: q).dropWhile isBareValueChar := by
          rw [hvalue, valueText, if_neg hc]
        have hsplit : p = (blanks ++ (c :: q).takeWhile isBareValueChar) ++ (parseValue p).2 := by
          rw [hafter, List.append_assoc, List.takeWhile_append_dropWhile]
          exact hp
        have hlen : p.length - (parseValue p).2.length =
            (blanks ++ (c :: q).takeWhile isBareValueChar).length := by
          have hlen := congrArg List.length hsplit
          rw [List.length_append] at hlen
          omega
        have hmarks : valueMarks p =
            List.replicate (blanks ++ (c :: q).takeWhile isBareValueChar).length .outside := by
          unfold valueMarks
          rw [hskip]
          dsimp only
          rw [if_neg hc, hlen]
        have hwritten : (writtenAt p).SplitPlain ↔
            unescapedApostrophes (trimInplace ((c :: q).takeWhile isBareValueChar)) = 0 := by
          unfold writtenAt
          rw [hskip]
          dsimp only
          rw [if_neg hc]
          exact Iff.rfl
        have hspace : isSpace c = false := test_head_dropWhile hskip
        have hstart : ∀ d ∈ ((c :: q).takeWhile isBareValueChar).head?, isSpace d = false := by
          intro d hd
          rw [List.takeWhile_cons] at hd
          split at hd
          · obtain rfl : c = d := by simpa using hd
            exact hspace
          · cases hd
        have hcount := unescapedFrom_bare hprevious hblanks hstart
        have hfirst := forall₂_outside_iff hout hhead (blanks ++ (c :: q).takeWhile isBareValueChar)
          (parseValue p).2
        rw [← hsplit, hcount] at hfirst
        rw [hmarks, hwritten, hfirst]
        refine and_congr_right fun hzero => forall₂_separator_iff ?_ hsep hd hplaces
        rw [inString_foldl_splitStep, hcount, hzero, hout]
        rfl

/-- The positions of a tuple and of its closing parenthesis. -/
theorem forall₂_tuple_iff (hout : s.inString = false) (hprevious : s.previous ≠ some backslash)
    {p after : CString} {tuple : List CString} (htuple : TuplePlaces p tuple after)
    (hplaces : PlacesIn after places) :
    List.Forall₂ Mark.Allows (textMarks p (tuple ++ places)) (splitBits s p) ↔
      (∀ place ∈ tuple, (writtenAt place).SplitPlain) ∧
        List.Forall₂ Mark.Allows (textMarks after places)
          (splitBits ⟨false, some closeParen⟩ after) := by
  induction htuple generalizing s with
  | close rest =>
      have hskip : skipWs (closeParen :: rest) = closeParen :: rest :=
        skipWs_cons_of_not_isSpace (by decide)
      rw [List.nil_append, forall₂_separator_iff hout hskip (by decide) hplaces]
      exact (and_iff_right fun place hplace => by cases hplace).symm
  | @value p next rest tuple hne hopen hsep hrest ih =>
      have hnext : PlacesIn next (tuple ++ places) := hrest.placesIn hplaces
      rw [List.cons_append, forall₂_value_iff hout hprevious hsep (by decide) hnext,
        ih rfl (by decide) hplaces, List.forall_mem_cons, and_assoc]
  | @last p rest hne hopen hsep =>
      rw [List.singleton_append, forall₂_value_iff hout hprevious hsep (by decide) hplaces,
        List.forall_mem_singleton]

/-- The positions behind `VALUES`, up to the end of the text. -/
theorem forall₂_tuples_iff (hout : s.inString = false) {p : CString}
    {tuples : List (List CString)} (htuples : TuplesPlaces p tuples) :
    List.Forall₂ Mark.Allows (textMarks p tuples.flatten) (splitBits s p) ↔
      ∀ tuple ∈ tuples, ∀ place ∈ tuple, (writtenAt place).SplitPlain := by
  induction htuples generalizing s with
  | @done p hend =>
      obtain ⟨blanks, hp, hblanks⟩ := exists_blanks_skipWs p
      rw [hend, List.append_nil] at hp
      subst hp
      have hzero : unescapedFrom s.previous p = 0 :=
        unescapedFrom_eq_zero (fun hmem => ne_apostrophe_of_isSpace (hblanks _ hmem) rfl) _
      exact iff_of_true (forall₂_outside_end hout hzero) fun tuple htuple => by cases htuple
  | comma hsep hrest ih =>
      rw [forall₂_separator_iff hout hsep (by decide) hrest.placesIn]
      exact ih rfl
  | @tuple p rest after tuple tuples hopen htuple hrest ih =>
      have hplaces : PlacesIn rest (tuple :: tuples).flatten := htuple.placesIn hrest.placesIn
      rw [forall₂_separator_iff hout hopen (by decide) hplaces, List.flatten_cons,
        forall₂_tuple_iff rfl (by decide) htuple hrest.placesIn, ih rfl, List.forall_mem_cons]

end Values

/-! ## Every position has one mark -/

theorem length_splitBits (s : SplitState) (p : CString) :
    (splitBits s p).length = p.length + 1 := by
  induction p generalizing s with
  | nil => rfl
  | cons c p ih => rw [splitBits, List.length_cons, ih, List.length_cons]

theorem length_quotedMarks (q : CString) :
    (quotedMarks q).length = q.length - (quotedText q).2.length := by
  induction q using quotedText_induction with
  | nil => rfl
  | char c p hc ih =>
      have hle := length_quotedText_le p
      rw [quotedMarks_cons hc, quotedText_cons hc, List.length_cons, List.length_cons, ih]
      dsimp only
      omega
  | doubled p ih =>
      have hle := length_quotedText_le p
      rw [quotedMarks_doubled, quotedText_doubled]
      simp only [List.length_cons, ih]
      omega
  | close p hp =>
      rw [quotedMarks_close hp, quotedText_close hp]
      simp only [List.length_cons, List.length_nil]
      omega

theorem length_valueMarks (place : CString) :
    (valueMarks place).length = place.length - (parseValue place).2.length := by
  have hvalue : (parseValue place).2 = (valueText (skipWs place)).2 := rfl
  have hskip := length_skipWs_le place
  unfold valueMarks
  split
  · next hnil =>
      rw [hvalue, hnil, valueText, List.length_replicate]
      rfl
  · next c q hcons =>
      rw [hcons, List.length_cons] at hskip
      split
      · next hc =>
          have hle := length_quotedText_le q
          rw [hvalue, hcons, valueText, if_pos hc, List.length_append, List.length_replicate,
            length_quotedMarks]
          omega
      · rw [List.length_replicate]

theorem length_textMarks {p : CString} {places : List CString} (h : PlacesIn p places) :
    (textMarks p places).length = p.length + 1 := by
  induction places generalizing p with
  | nil => rw [textMarks, List.length_replicate]
  | cons place places ih =>
      have hle := h.1
      have hvalue := length_parseValue_le place
      rw [textMarks, List.length_append, List.length_append, List.length_replicate,
        length_valueMarks, ih h.2]
      omega

theorem textMarks_getLast? (p : CString) (places : List CString) :
    (textMarks p places).getLast? = some .outside := by
  induction places generalizing p with
  | nil => rw [textMarks, List.replicate_succ', List.getLast?_concat]
  | cons place places ih => rw [textMarks, List.getLast?_append, ih, Option.some_or]

/-- Two lists in two parts of the same lengths. -/
theorem forall₂_append_iff {α β : Type} {R : α → β → Prop} {l₁ l₂ : List α} {m₁ m₂ : List β}
    (hlen : l₁.length = m₁.length) :
    List.Forall₂ R (l₁ ++ l₂) (m₁ ++ m₂) ↔ List.Forall₂ R l₁ m₁ ∧ List.Forall₂ R l₂ m₂ := by
  constructor
  · intro h
    have hfirst := List.forall₂_take l₁.length h
    have hsecond := List.forall₂_drop l₁.length h
    rw [List.take_left, hlen, List.take_left] at hfirst
    rw [List.drop_left, hlen, List.drop_left] at hsecond
    exact ⟨hfirst, hsecond⟩
  · rintro ⟨hfirst, hsecond⟩
    exact List.rel_append hfirst hsecond

/-! ## Where the values of a statement stand -/

theorem suffix_of_skipWs {p next : CString} {d : CChar} (h : skipWs p = d :: next) : next <:+ p :=
  (List.suffix_cons d next).trans (h ▸ List.dropWhile_suffix isSpace)

theorem parseIdentifier_suffix {p : CString} {outLen : Nat} {name after : CString}
    (h : parseIdentifier p outLen = some (name, after)) : after <:+ p := by
  have hskip : skipWs p <:+ p := List.dropWhile_suffix isSpace
  obtain ⟨-, -, ⟨quote, -, -, hp⟩ | ⟨-, hp, -⟩⟩ := parseIdentifier_eq_some_iff.mp h
  · rw [hp] at hskip
    refine List.IsSuffix.trans ⟨quote :: (name ++ [quote]), ?_⟩ hskip
    simp
  · rw [hp] at hskip
    exact (List.suffix_append name after).trans hskip

/-- The names of a column list end in the text they begin in. -/
theorem NamesRead.suffix {p after : CString} {names : List CString} (h : NamesRead p names after) :
    after <:+ p := by
  induction h with
  | close rest => exact List.suffix_cons _ _
  | name hopen hname hsep hrest ih =>
      exact ih.trans ((suffix_of_skipWs hsep).trans (parseIdentifier_suffix hname))
  | last hopen hname hsep => exact (suffix_of_skipWs hsep).trans (parseIdentifier_suffix hname)

theorem ColumnsChosen.suffix {table : Table} {p rest : CString} {columns : List (Fin maxColumns)}
    (h : ColumnsChosen table p columns rest) : rest <:+ p := by
  cases h with
  | listed hread =>
      obtain ⟨names, hnames, -⟩ := columnsRead_iff.mp hread
      exact hnames.suffix.trans (List.suffix_cons _ _)
  | natural hopen => exact List.suffix_refl _

/-- The values of a statement stand at its end. -/
theorem Reading.Of.values_suffix {tables : Tables} {stmt : CString} {r : Reading}
    (hr : r.Of tables stmt) : r.values.drop 6 <:+ stmt := by
  obtain ⟨-, -, after, hname, -, -, htarget⟩ := insertTarget_eq_ok_iff.mp hr.target
  obtain ⟨-, skipped, hskipped⟩ := ciFind_spec hr.values
  have hvalues : r.values <:+ r.rest := ⟨skipped, hskipped.symm⟩
  have hafter : r.target.after <:+ after := htarget ▸ List.dropWhile_suffix isSpace
  have hbegin : (skipWs ((skipWs stmt).drop 6)).drop 4 <:+ stmt :=
    ((List.drop_suffix 4 _).trans (List.dropWhile_suffix isSpace)).trans
      ((List.drop_suffix 6 _).trans (List.dropWhile_suffix isSpace))
  exact (List.drop_suffix 6 r.values).trans (hvalues.trans (hr.columns.suffix.trans
    (hafter.trans ((parseIdentifier_suffix hname).trans hbegin))))

/-! ## Statements -/

section Statements

variable {tables : Tables} {text : CString}

/-- A text whose last position is outside leaves the loop outside strings. -/
theorem inString_of_forall₂ {s : SplitState} {p : CString} {marks : List Mark}
    (h : List.Forall₂ Mark.Allows marks (splitBits s p))
    (hlast : marks.getLast? = some .outside) : (p.foldl splitStep s).inString = false := by
  induction p generalizing s marks with
  | nil =>
      cases h with
      | cons hallows hnil =>
          cases hnil
          obtain rfl : _ = Mark.outside := Option.some.inj hlast
          exact hallows
  | cons c p ih =>
      cases h with
      | @cons m _ marks _ hallows hrest =>
          refine ih hrest ?_
          obtain ⟨bits, hbits⟩ := splitBits_eq_cons (splitStep s c) p
          rw [hbits] at hrest
          cases hrest with
          | cons => rwa [List.getLast?_cons_cons] at hlast

/-- Over white space the bit stays as it is. -/
theorem splitBits_append_blanks {blanks : CString} (hblanks : ∀ c ∈ blanks, isSpace c = true)
    (s : SplitState) (p : CString) :
    splitBits s (p ++ blanks) =
      splitBits s p ++ List.replicate blanks.length (p.foldl splitStep s).inString := by
  induction p generalizing s with
  | nil =>
      induction blanks generalizing s with
      | nil => rfl
      | cons c blanks ih =>
          have hc := hblanks c List.mem_cons_self
          have hstep : (splitStep s c).inString = s.inString := by
            rw [splitStep, if_neg fun hboth => ne_apostrophe_of_isSpace hc hboth.1]
          have htail := ih (fun d hd => hblanks d (List.mem_cons_of_mem c hd)) (splitStep s c)
          have hhere : splitBits s (c :: blanks) = s.inString :: splitBits (splitStep s c) blanks :=
            rfl
          rw [List.nil_append] at htail ⊢
          rw [hhere, htail]
          simp [splitBits, hstep, List.replicate_succ]
  | cons c p ih =>
      rw [List.cons_append, splitBits, ih, splitBits, List.cons_append, List.foldl_cons]

/-- White space behind a text is outside literals as the end of the text is. -/
theorem forall₂_append_blanks {s : SplitState} {p blanks : CString} {marks : List Mark}
    (hblanks : ∀ c ∈ blanks, isSpace c = true) (hlen : marks.length = p.length + 1)
    (hlast : marks.getLast? = some .outside) :
    List.Forall₂ Mark.Allows (marks ++ List.replicate blanks.length .outside)
        (splitBits s (p ++ blanks)) ↔
      List.Forall₂ Mark.Allows marks (splitBits s p) := by
  have hall : ∀ n, List.Forall₂ Mark.Allows (List.replicate n .outside)
      (List.replicate n false) := by
    intro n
    induction n with
    | zero => exact .nil
    | succ n ih => exact .cons rfl ih
  rw [splitBits_append_blanks hblanks, forall₂_append_iff (hlen.trans (length_splitBits s p).symm)]
  refine and_iff_left_of_imp fun h => ?_
  rw [inString_of_forall₂ h hlast]
  exact hall blanks.length

/-- The positions of a statement: the loop agrees with the parser on the part in front
of the values, and on every value. -/
theorem forall₂_statement_iff {r : Reading} {front : CString} {placess : List (List CString)}
    (hplaces : TuplesPlaces (r.values.drop 6) placess)
    (hsplit : text.rdropWhile isSpace = front ++ r.values.drop 6) :
    List.Forall₂ Mark.Allows (textMarks (text.rdropWhile isSpace) placess.flatten ++
        List.replicate (text.rtakeWhile isSpace).length .outside) (splitBits splitStart text) ↔
      unescapedApostrophes front = 0 ∧
        ∀ places ∈ placess, ∀ place ∈ places, (writtenAt place).SplitPlain := by
  have htext : text = text.rdropWhile isSpace ++ text.rtakeWhile isSpace :=
    List.rdropWhile_append_rtakeWhile.symm
  have hblanks : ∀ c ∈ text.rtakeWhile isSpace, isSpace c = true :=
    fun c hc => List.mem_rtakeWhile_imp hc
  have hin : PlacesIn (text.rdropWhile isSpace) placess.flatten := by
    rw [hsplit]
    exact hplaces.placesIn.mono (by rw [List.length_append]; exact Nat.le_add_left _ _)
  have hends := forall₂_append_blanks (s := splitStart) hblanks (length_textMarks hin)
    (textMarks_getLast? _ _)
  rw [← htext] at hends
  have hfront := forall₂_outside_iff (s := splitStart) rfl
    (textMarks_head? (r.values.drop 6) placess.flatten) front (r.values.drop 6)
  rw [hends, hsplit, textMarks_append front hplaces.placesIn, hfront]
  refine and_congr_right fun hzero => forall₂_tuples_iff ?_ hplaces
  have hzero' : unescapedFrom splitStart.previous front = 0 := hzero
  rw [inString_foldl_splitStep, hzero']
  rfl

/-- A statement on whose positions the loop and the parser agree. -/
def StatementSplits (tables : Tables) (text : CString) : Prop :=
  ∃ marks, StatementMarks tables text marks ∧
    List.Forall₂ Mark.Allows marks (splitBits splitStart text)

theorem length_statementMarks {marks : List Mark} (h : StatementMarks tables text marks) :
    marks.length = text.length + 1 := by
  cases h with
  | blank => rw [List.length_replicate]
  | @insert r placess hr hplaces =>
      have hstmt : trimInplace text <:+ text.rdropWhile isSpace := List.dropWhile_suffix isSpace
      have hle := (hr.values_suffix.trans hstmt).length_le
      have htext := congrArg List.length (@List.rdropWhile_append_rtakeWhile _ isSpace text)
      rw [List.length_append] at htext
      rw [List.length_append, List.length_replicate, length_textMarks (hplaces.placesIn.mono hle)]
      omega

/-- The literals of a statement stand at the places of its values. -/
theorem splitPlain_places_iff {placess : List (List CString)} :
    (∀ ws ∈ placess.map (List.map writtenAt), ∀ w ∈ ws, w.SplitPlain) ↔
      ∀ places ∈ placess, ∀ place ∈ places, (writtenAt place).SplitPlain := by
  simp only [List.forall_mem_map]

/-- On a plain statement the loop and the parser agree. -/
theorem StatementPlain.splits (h : StatementPlain tables text) : StatementSplits tables text := by
  cases h with
  | blank hblank =>
      have htrim : skipWs (trimInplace text) = trimInplace text := skipWs_skipWs _
      have hzero : unescapedFrom splitStart.previous text = 0 :=
        unescapedFrom_eq_zero (notMem_of_blank (by decide) (htrim ▸ hblank)) _
      exact ⟨_, .blank hblank, forall₂_outside_end rfl hzero⟩
  | insert hr htuples hsplit hzero hvalues =>
      obtain ⟨placess, hplaces, rfl⟩ := htuples
      have hagree := (forall₂_statement_iff hplaces hsplit).mpr
        ⟨hzero, splitPlain_places_iff.mp hvalues⟩
      exact ⟨_, .insert hr hplaces, hagree⟩

/-- The loop and the parser agree on an accepted statement exactly when it is plain. -/
theorem statementSplits_iff {rows : List InsertRow} (h : StatementRows tables text rows) :
    StatementSplits tables text ↔ StatementPlain tables text := by
  refine ⟨fun hsplits => ?_, StatementPlain.splits⟩
  rcases h.2 with ⟨hblank, -⟩ | ⟨r, hr, -⟩
  · exact .blank hblank
  · have hne : skipWs (trimInplace text) ≠ [] := by
      intro hblank
      exact insertTarget_nil tables r.target (hblank ▸ hr.target)
    obtain ⟨marks, hmarks, hagree⟩ := hsplits
    cases hmarks with
    | blank hblank => exact absurd hblank hne
    | @insert r placess hr hplaces =>
        have hstmt : trimInplace text <:+ text.rdropWhile isSpace := List.dropWhile_suffix isSpace
        obtain ⟨front, hfront⟩ := hr.values_suffix.trans hstmt
        obtain ⟨hzero, hvalues⟩ := (forall₂_statement_iff hplaces hfront.symm).mp hagree
        exact .insert hr ⟨placess, hplaces, rfl⟩ hfront.symm hzero
          (splitPlain_places_iff.mpr hvalues)

/-- A plain statement leaves the loop outside strings. -/
theorem StatementPlain.even (h : StatementPlain tables text) :
    Even (unescapedApostrophes text) := by
  obtain ⟨marks, hmarks, hagree⟩ := h.splits
  refine (inString_splitStart text).mp (inString_of_forall₂ hagree ?_)
  cases hmarks with
  | blank => rw [List.replicate_succ', List.getLast?_concat]
  | insert hr hplaces =>
      rw [List.getLast?_append, textMarks_getLast?]
      cases (text.rtakeWhile isSpace).length with
      | zero => rfl
      | succ n => rw [List.replicate_succ', List.getLast?_concat, Option.some_or]

end Statements

/-! ## Texts -/

section Texts

variable {tables : Tables} {sql : CString}

/-- Only a backslash matters in front of a text. -/
theorem splitBits_congr {s t : SplitState} (hbit : s.inString = t.inString)
    (hprevious : s.previous = some backslash ↔ t.previous = some backslash) (p : CString) :
    splitBits s p = splitBits t p := by
  cases p with
  | nil => rw [splitBits, splitBits, hbit]
  | cons c p =>
      have hstep : splitStep s c = splitStep t c := by
        simp only [splitStep, hbit, ne_eq, hprevious]
      rw [splitBits, splitBits, hbit, hstep]

/-- The bits of a text are those of its statements: the loop begins each of them as it
begins the text. -/
theorem splitBits_of_cutText {s : SplitState} {piece : CString} {pieces : List CString}
    (h : cutText splitStep splitCuts s sql = piece :: pieces) :
    splitBits s sql = splitBits s piece ++ (pieces.map (splitBits splitStart)).flatten := by
  induction sql generalizing s piece pieces with
  | nil =>
      obtain ⟨rfl, rfl⟩ := List.cons.inj h
      rfl
  | cons c rest ih =>
      rw [cutText] at h
      cases hpieces : cutText splitStep splitCuts (splitStep s c) rest with
      | nil => exact absurd hpieces (cutText_ne_nil _ _)
      | cons next others =>
          rw [hpieces] at h
          rw [splitBits, ih hpieces]
          split at h
          · next hcut =>
              obtain ⟨rfl, rfl⟩ := List.cons.inj h
              obtain ⟨hc, hbit⟩ : c = semicolon ∧ (splitStep s c).inString = false := by
                simpa [splitCuts] using hcut
              have hprevious : (splitStep s c).previous = some backslash ↔
                  splitStart.previous = some backslash := by
                have hlast : (splitStep s c).previous = some semicolon := congrArg some hc
                rw [hlast]
                exact iff_of_false (by decide) (by decide)
              rw [splitBits_congr hbit hprevious]
              rfl
          · obtain ⟨rfl, rfl⟩ := List.cons.inj h
            rfl

theorem splitBits_splitStatements (sql : CString) :
    splitBits splitStart sql = ((splitStatements sql).map (splitBits splitStart)).flatten := by
  cases hpieces : splitStatements sql with
  | nil => exact absurd hpieces (cutText_ne_nil _ _)
  | cons piece pieces => exact splitBits_of_cutText hpieces

/-- The two agree on a text exactly when they do on each of its statements. -/
theorem splitsAsRead_iff :
    SplitsAsRead tables sql ↔ ∀ text ∈ splitStatements sql, StatementSplits tables text := by
  have hall : ∀ texts : List CString,
      (∃ markss, List.Forall₂ (StatementMarks tables) texts markss ∧
        List.Forall₂ Mark.Allows markss.flatten (texts.map (splitBits splitStart)).flatten) ↔
      ∀ text ∈ texts, StatementSplits tables text := by
    intro texts
    induction texts with
    | nil => exact iff_of_true ⟨[], .nil, .nil⟩ fun text htext => by cases htext
    | cons text texts ih =>
        rw [List.forall_mem_cons, ← ih]
        constructor
        · rintro ⟨_, hmarkss, hagree⟩
          cases hmarkss with
          | @cons _ marks _ markss hmarks hmarkss =>
              have hlen : marks.length = (splitBits splitStart text).length := by
                rw [length_statementMarks hmarks, length_splitBits]
              rw [List.flatten_cons, List.map_cons, List.flatten_cons,
                forall₂_append_iff hlen] at hagree
              exact ⟨⟨marks, hmarks, hagree.1⟩, markss, hmarkss, hagree.2⟩
        · rintro ⟨⟨marks, hmarks, hfirst⟩, markss, hmarkss, hrest⟩
          exact ⟨marks :: markss, .cons hmarks hmarkss, List.rel_append hfirst hrest⟩
  rw [← hall, ← splitBits_splitStatements]
  rfl

/-- The statements with semicolons between them are the text. -/
theorem intercalate_splitStatements (sql : CString) :
    List.intercalate [semicolon] (splitStatements sql) = sql := by
  have hall : ∀ s, List.intercalate [semicolon] (cutText splitStep splitCuts s sql) = sql := by
    induction sql with
    | nil => exact fun s => rfl
    | cons c rest ih =>
        intro s
        have hrest := ih (splitStep s c)
        rw [cutText]
        cases hpieces : cutText splitStep splitCuts (splitStep s c) rest with
        | nil => exact absurd hpieces (cutText_ne_nil _ _)
        | cons next others =>
            rw [hpieces] at hrest
            split
            · next hcut =>
                obtain ⟨rfl, -⟩ : c = semicolon ∧ _ := by simpa [splitCuts] using hcut
                rw [List.intercalate_cons_cons, hrest]
                rfl
            · show List.intercalate [semicolon] ((c :: next) :: others) = c :: rest
              cases others with
              | nil =>
                  rw [List.intercalate_singleton] at hrest ⊢
                  rw [hrest]
              | cons other others =>
                  rw [List.intercalate_cons_cons] at hrest ⊢
                  rw [← hrest]
                  rfl
  exact hall splitStart

/-- A plain statement in a text whose parts between the cuts are all accepted is not cut. -/
theorem splitStatements_of_plain {text : CString} (hplain : StatementPlain tables text)
    (hrows : ∀ piece ∈ splitStatements text, ∃ rows, StatementRows tables piece rows) :
    splitStatements text = [text] := by
  have hwhole := intercalate_splitStatements text
  cases hpieces : splitStatements text with
  | nil => exact absurd hpieces (cutText_ne_nil _ _)
  | cons piece pieces =>
      rw [hpieces] at hwhole hrows
      cases pieces with
      | nil => rw [← hwhole, List.intercalate_singleton]
      | cons other pieces =>
          rw [List.intercalate_cons_cons, List.append_assoc, List.singleton_append] at hwhole
          obtain ⟨rows, hpiece⟩ := hrows piece List.mem_cons_self
          exfalso
          cases hplain with
          | blank hblank =>
              have hskip : skipWs (trimInplace text) = trimInplace text := skipWs_skipWs _
              have hmem : semicolon ∈ text := by
                rw [← hwhole]
                simp
              exact notMem_of_blank (by decide) (hskip ▸ hblank) hmem
          | insert hr =>
              rw [← hwhole] at hr
              exact not_reading_semicolon hpiece _ hr

/-- Plain statements with semicolons between them are cut at these semicolons. -/
theorem splitStatements_intercalate {texts : List CString} (hne : texts ≠ [])
    (hplain : ∀ text ∈ texts, StatementPlain tables text)
    (hrows : ∀ piece ∈ splitStatements (List.intercalate [semicolon] texts),
      ∃ rows, StatementRows tables piece rows) :
    splitStatements (List.intercalate [semicolon] texts) = texts := by
  induction texts with
  | nil => exact absurd rfl hne
  | cons text texts ih =>
      have htext := hplain text List.mem_cons_self
      cases texts with
      | nil =>
          rw [List.intercalate_singleton] at hrows ⊢
          exact splitStatements_of_plain htext hrows
      | cons next texts =>
          rw [List.intercalate_cons_cons, List.append_assoc, List.singleton_append] at hrows ⊢
          have hcut := splitStatements_semicolon (List.intercalate [semicolon] (next :: texts))
            htext.even
          rw [hcut, List.forall_mem_append] at hrows
          rw [hcut, splitStatements_of_plain htext hrows.1,
            ih (List.cons_ne_nil _ _) (fun t ht => hplain t (List.mem_cons_of_mem _ ht)) hrows.2,
            List.singleton_append]

/-- A text that is accepted is plain exactly when each of its statements is. -/
theorem quotesPlain_iff {batch : InsertBatch} (h : parseBatch tables sql = .ok batch) :
    QuotesPlain tables sql ↔ ∀ text ∈ splitStatements sql, StatementPlain tables text := by
  have hrows : ∀ piece ∈ splitStatements sql, ∃ rows, StatementRows tables piece rows :=
    fun piece hpiece => statementRows_of_mem h hpiece
  constructor
  · rintro ⟨texts, rfl, hplain⟩
    cases texts with
    | nil =>
        intro text htext
        obtain rfl : text = [] := List.mem_singleton.mp htext
        exact .blank rfl
    | cons text texts =>
        rwa [splitStatements_intercalate (List.cons_ne_nil _ _) hplain hrows]
  · intro hplain
    exact ⟨splitStatements sql, (intercalate_splitStatements sql).symm, hplain⟩

/-- The loop and the parser agree on an accepted text exactly when it is plain. -/
theorem splitsAsRead_iff_quotesPlain {batch : InsertBatch}
    (h : parseBatch tables sql = .ok batch) :
    SplitsAsRead tables sql ↔ QuotesPlain tables sql := by
  rw [splitsAsRead_iff, quotesPlain_iff h]
  refine forall₂_congr fun text htext => ?_
  obtain ⟨rows, hread⟩ := statementRows_of_mem h htext
  exact statementSplits_iff hread

/-- A plain text leaves the loop outside strings. -/
theorem QuotesPlain.even (h : QuotesPlain tables sql) : Even (unescapedApostrophes sql) := by
  obtain ⟨texts, rfl, hplain⟩ := h
  induction texts with
  | nil => exact Even.zero
  | cons text texts ih =>
      have htext := (hplain text List.mem_cons_self).even
      cases texts with
      | nil =>
          rw [List.intercalate_singleton]
          exact htext
      | cons next texts =>
          have hrest := ih fun t ht => hplain t (List.mem_cons_of_mem _ ht)
          rw [List.intercalate_cons_cons, List.append_assoc, List.singleton_append]
          generalize List.intercalate [semicolon] (next :: texts) = rest at hrest
          rw [← inString_splitStart] at htext hrest ⊢
          have hbehind : (splitStep (text.foldl splitStep splitStart) semicolon).inString =
              false := by
            rw [splitStep, if_neg fun hboth => absurd hboth.1 (by decide)]
            exact htext
          have hsame : unescapedFrom (some semicolon) rest = unescapedFrom none rest :=
            unescapedFrom_congr (iff_of_false (by decide) (by decide)) rest
          rw [inString_foldl_splitStep] at hrest
          rw [List.foldl_append, List.foldl_cons, inString_foldl_splitStep, hbehind]
          exact (congrArg (fun n : Nat => (false ^^ n.bodd)) hsame).trans hrest

/-! ## Two texts -/

/-- For two accepted texts whose rows fit together: joined by a semicolon they are
accepted as their rows one after the other exactly when the first holds an even number
of apostrophes that do not stand directly behind a backslash; and the splitting loop
agrees with the parser besides, at every position of both texts, exactly when both are
plain. -/
theorem splitting_agrees_iff {a b : CString} {A B : InsertBatch}
    (ha : parseBatch tables a = .ok A) (hb : parseBatch tables b = .ok B)
    (hroom : A.count + B.items.length ≤ maxBatchRows) :
    (parseBatch tables (a ++ semicolon :: b) = .ok (A.append B.items hroom) ↔
      Even (unescapedApostrophes a)) ∧
    (parseBatch tables (a ++ semicolon :: b) = .ok (A.append B.items hroom) ∧
        SplitsAsRead tables a ∧ SplitsAsRead tables b ↔
      QuotesPlain tables a ∧ QuotesPlain tables b) := by
  have hjoined := parseBatch_semicolon_iff ha hb hroom
  refine ⟨hjoined, ?_⟩
  rw [splitsAsRead_iff_quotesPlain ha, splitsAsRead_iff_quotesPlain hb]
  exact and_iff_right_of_imp fun hplain => hjoined.mpr hplain.1.even

end Texts

/-! ## One value -/

/-- The reading of `INSERT INTO t VALUES` with one tuple of one value. -/
def oneReading (first : CString) : Reading :=
  ⟨⟨lit "t", 0, plainTable, lit "VALUES (" ++ first⟩, [0], lit "VALUES (" ++ first,
    lit "VALUES (" ++ first, [[(writtenAt first).cell]]⟩

theorem oneReading_tuples {first : CString} (hfirst : first ≠ [] ∧ first.head? ≠ some closeParen)
    (hclose : skipWs (parseValue first).2 = [closeParen]) :
    TuplesWritten ((oneReading first).values.drop 6) [[writtenAt first]] :=
  ⟨[[first]], .tuple rfl (.last hfirst.1 hfirst.2 hclose) (.done rfl), rfl⟩

theorem oneReading_of {first : CString} (hfirst : first ≠ [] ∧ first.head? ≠ some closeParen)
    (hclose : skipWs (parseValue first).2 = [closeParen]) :
    (oneReading first).Of plainTables (lit "INSERT INTO t VALUES (" ++ first) where
  target := rfl
  columns := .natural (fun h => absurd (Option.some.inj h) (by decide))
  room := (by decide : 1 ≤ maxColumns)
  values := rfl
  tuples := tuplesRead_iff_written.mpr ⟨_, oneReading_tuples hfirst hclose, rfl⟩
  counts := by
    intro cells hcells
    rw [List.mem_singleton.mp hcells]
    rfl

/-- A text with one such statement is plain where its value is. -/
theorem quotesPlain_one {first : CString} (hfirst : first ≠ [] ∧ first.head? ≠ some closeParen)
    (hclose : skipWs (parseValue first).2 = [closeParen])
    (hend : (lit "INSERT INTO t VALUES (" ++ first).rdropWhile isSpace =
      lit "INSERT INTO t VALUES (" ++ first)
    (hplain : (writtenAt first).SplitPlain) :
    QuotesPlain plainTables (lit "INSERT INTO t VALUES (" ++ first) := by
  have htrim : trimInplace (lit "INSERT INTO t VALUES (" ++ first) =
      lit "INSERT INTO t VALUES (" ++ first := by
    show skipWs ((lit "INSERT INTO t VALUES (" ++ first).rdropWhile isSpace) = _
    rw [hend]
    rfl
  refine ⟨[lit "INSERT INTO t VALUES (" ++ first], (List.intercalate_singleton).symm,
    fun text htext => ?_⟩
  rw [List.mem_singleton.mp htext]
  have hof := oneReading_of hfirst hclose
  have hsplit : (lit "INSERT INTO t VALUES (" ++ first).rdropWhile isSpace =
      lit "INSERT INTO t VALUES" ++ (oneReading first).values.drop 6 := hend
  refine .insert (htrim.symm ▸ hof) (oneReading_tuples hfirst hclose) hsplit
    (by decide +kernel) fun ws hws w hw => ?_
  obtain rfl := List.mem_singleton.mp hws
  rw [List.mem_singleton.mp hw]
  exact hplain

/-- A value with a doubled apostrophe and a semicolon, then another statement. -/
theorem splitting_agrees_quoted :
    ∃ whole, parseBatch plainTables
        (lit "INSERT INTO t VALUES ('it''s;')" ++ semicolon :: lit "INSERT INTO t VALUES (1)") =
      .ok whole ∧ whole.items = [plainRow (lit "it's;"), plainRow (lit "1")] ∧
      SplitsAsRead plainTables (lit "INSERT INTO t VALUES ('it''s;')") ∧
      SplitsAsRead plainTables (lit "INSERT INTO t VALUES (1)") := by
  have hquoted : parseBatch plainTables (lit "INSERT INTO t VALUES ('it''s;')") =
      .ok ⟨[plainRow (lit "it's;")], by decide⟩ := by
    decide +kernel
  have ha : QuotesPlain plainTables (lit "INSERT INTO t VALUES (" ++ lit "'it''s;')") := by
    refine quotesPlain_one (by decide) (by decide +kernel) (by decide +kernel) ?_
    have hwritten : writtenAt (lit "'it''s;')") = .quoted (lit "it's;") := by
      decide +kernel
    rw [hwritten]
    exact (by decide +kernel : EscapeFree (lit "it's;"))
  have hb : QuotesPlain plainTables (lit "INSERT INTO t VALUES (" ++ lit "1)") := by
    refine quotesPlain_one (by decide) (by decide +kernel) (by decide +kernel) ?_
    have hwritten : writtenAt (lit "1)") = .bare (lit "1") (by decide) := by
      decide +kernel
    rw [hwritten]
    exact (by decide +kernel : unescapedApostrophes (lit "1") = 0)
  obtain ⟨hjoined, hsplits⟩ :=
    (splitting_agrees_iff hquoted parseBatch_one (by decide)).2.mpr ⟨ha, hb⟩
  exact ⟨_, hjoined, rfl, hsplits⟩

/-- Two values that end in a backslash: the loop comes back outside strings at the end,
and takes what stands between the two values for a string. -/
example : Even (unescapedApostrophes (lit "INSERT INTO t VALUES ('x\\'), ('y\\')")) ∧
    ¬ List.Forall₂ Mark.Allows
      (textMarks (lit "INSERT INTO t VALUES ('x\\'), ('y\\')")
        [lit "'x\\'), ('y\\')", lit "'y\\')"])
      (splitBits splitStart (lit "INSERT INTO t VALUES ('x\\'), ('y\\')")) := by
  decide +kernel

end SqlCodeGenerator
