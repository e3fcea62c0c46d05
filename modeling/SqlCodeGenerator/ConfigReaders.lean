import SqlCodeGenerator.Decimals
import SqlCodeGenerator.ServerConfig

/-!
# The two readers of the configuration file

A configuration file as `config.cfg` is one: the group `server`, whose lines set a key,
are blank or are comments.  Of libconfig it is assumed that it skips the comments and
answers the number of a key that an `int` holds.

The reader with libconfig takes the number of a key that is in bounds.  The reader
without it takes what the last piece of 255 characters with a `=` and the name of the key
says, be it a comment, and its bound for the timeout is another one.

* `get_cfgLoadFileLibconfig`: what the reader with libconfig makes of a file;
* `filterMap_pieces_plain`: what the other one takes from a file whose comments set nothing;
* `readers_agree_iff`: when the two readers leave the same configuration.
-/

namespace SqlCodeGenerator

open Library

/-! ## Configuration files -/

/-- Spaces and tabs. -/
abbrev IndentText := { text : CString // text.all isBlank = true }

theorem IndentText.isBlank (indent : IndentText) : ∀ c ∈ indent.val, isBlank c = true :=
  List.all_eq_true.mp indent.property

/-- A text on one line. -/
abbrev LineText := { text : CString // newline ∉ text }

/-- A line that says nothing: a blank one, or a comment behind `#` or `//`. -/
inductive Filler where
  | blank (indent : IndentText)
  | comment (indent : IndentText) (slashes : Bool) (text : LineText)

/-- A line of the group. -/
inductive ConfigLine where
  | filler (line : Filler)
  | setting (indent : IndentText) (key : ConfigKey) (number : Int)

/-- The line, without its end. -/
def Filler.line : Filler → CString
  | blank indent => indent.val
  | comment indent slashes text => indent.val ++ (if slashes then lit "//" else lit "#") ++ text.val

namespace ConfigLine

/-- The line, without its end. -/
def line : ConfigLine → CString
  | filler f => f.line
  | setting indent key number => indent.val ++ key.name ++ lit " = " ++ decimalInt number ++ lit ";"

/-- The key that the line sets. -/
def key? : ConfigLine → Option ConfigKey
  | filler _ => none
  | setting _ key _ => some key

/-- The number that the line sets a key to. -/
def number? (k : ConfigKey) : ConfigLine → Option Int
  | filler _ => none
  | setting _ key number => if key = k then some number else none

end ConfigLine

/-- A configuration file: the group `server` between lines that say nothing.  It sets
each key at most once. -/
structure ConfigFile where
  before : List Filler
  lines : List ConfigLine
  after : List Filler
  once : (lines.filterMap ConfigLine.key?).Nodup

namespace ConfigFile

/-- The lines of the file. -/
def allLines (file : ConfigFile) : List CString :=
  file.before.map Filler.line ++ lit "server: \x7b" :: file.lines.map ConfigLine.line ++
    lit "\x7d;" :: file.after.map Filler.line

/-- The text of the file. -/
def text (file : ConfigFile) : CString := file.allLines.flatMap (· ++ [newline])

/-- The number of a key in the file. -/
def number? (file : ConfigFile) (k : ConfigKey) : Option Int :=
  file.lines.findSome? (ConfigLine.number? k)

end ConfigFile

/-- What an `int` holds. -/
def fitsInt (n : Int) : Bool := decide (-2147483648 ≤ n) && decide (n ≤ 2147483647)

/-- The answers of `config_lookup_int` for a file: the number of the key, if there is one
and an `int` holds it. -/
def LibconfigReads (lookup : CString → Option Int) (file : ConfigFile) : Prop :=
  ∀ k : ConfigKey, lookup (lit "server." ++ k.name) = (file.number? k).filter fitsInt

/-! ## The reader with libconfig -/

/-- The largest number of a key that the reader with libconfig accepts. -/
def ConfigKey.limit : ConfigKey → Int
  | .port => 65535
  | .adminPort => 65535
  | .adminTimeout => 2147483647

/-- Within the bounds of the key. -/
def ConfigKey.inBounds (k : ConfigKey) (n : Int) : Bool := decide (0 < n) && decide (n ≤ k.limit)

theorem ConfigKey.inBounds_iff {k : ConfigKey} {n : Int} :
    k.inBounds n = true ↔ 0 < n ∧ n ≤ k.limit := by
  rw [inBounds, Bool.and_eq_true, decide_eq_true_eq, decide_eq_true_eq]

namespace ConfigFile

/-- The number of a key in the file, if it is in bounds. -/
def accepted (file : ConfigFile) (k : ConfigKey) : Option Int :=
  (file.number? k).filter k.inBounds

/-- The number that the file gives a key: the one that is in bounds, else the one that
the key has. -/
def value (file : ConfigFile) (cfg : RuntimeConfig) (k : ConfigKey) : Int :=
  (file.accepted k).getD (cfg.get k)

end ConfigFile

/-- A number that is in bounds fits an `int`. -/
theorem fitsInt_of_bounds {k : ConfigKey} {n : Int} (hpos : 0 < n) (hlimit : n ≤ k.limit) :
    fitsInt n = true := by
  have hmost : k.limit ≤ 2147483647 := by cases k <;> decide
  simp only [fitsInt, Bool.and_eq_true, decide_eq_true_eq]
  omega

/-- A looked up port is the number that is in bounds. -/
theorem toNat_lookedUpPort {k : ConfigKey} (hk : k.limit = 65535) (number : Option Int)
    (target : UInt16) :
    ((lookedUpPort (number.filter fitsInt) target).toNat : Int) =
      (number.filter k.inBounds).getD target.toNat := by
  cases number with
  | none => rfl
  | some n =>
      by_cases hbounds : 0 < n ∧ n ≤ 65535
      · have hin : k.inBounds n = true := ConfigKey.inBounds_iff.mpr (by rwa [hk])
        have hfits := fitsInt_of_bounds hbounds.1 (hk ▸ hbounds.2)
        rw [Option.filter_some_pos hin, Option.filter_some_pos hfits]
        simp only [lookedUpPort]
        rw [if_pos hbounds, RuntimeConfig.toNat_port hbounds.1 hbounds.2, Option.getD_some]
      · have hout : k.inBounds n = false :=
          Bool.eq_false_iff.mpr fun hin => hbounds (hk ▸ ConfigKey.inBounds_iff.mp hin)
        rw [Option.filter_some_neg hout, Option.getD_none]
        cases hfits : fitsInt n with
        | false => rw [Option.filter_some_neg (by simp [hfits])]; rfl
        | true =>
            rw [Option.filter_some_pos hfits]
            simp only [lookedUpPort]
            rw [if_neg hbounds]

/-- The looked up timeout is the number that is in bounds. -/
theorem lookedUpTimeout_eq (number : Option Int) (target : Int) :
    lookedUpTimeout (number.filter fitsInt) target =
      (number.filter ConfigKey.adminTimeout.inBounds).getD target := by
  cases number with
  | none => rfl
  | some n =>
      by_cases hbounds : 0 < n ∧ n ≤ 2147483647
      · have hin : ConfigKey.adminTimeout.inBounds n = true :=
          ConfigKey.inBounds_iff.mpr hbounds
        have hfits : fitsInt n = true := fitsInt_of_bounds (k := .adminTimeout) hbounds.1 hbounds.2
        rw [Option.filter_some_pos hin, Option.filter_some_pos hfits]
        simp only [lookedUpTimeout]
        rw [if_pos hbounds.1, Option.getD_some]
      · have hout : ConfigKey.adminTimeout.inBounds n = false :=
          Bool.eq_false_iff.mpr fun hin => hbounds (ConfigKey.inBounds_iff.mp hin)
        rw [Option.filter_some_neg hout, Option.getD_none]
        cases hfits : fitsInt n with
        | false => rw [Option.filter_some_neg (by simp [hfits])]; rfl
        | true =>
            simp only [fitsInt, Bool.and_eq_true, decide_eq_true_eq] at hfits
            have hpos : ¬ n > 0 := fun hpos => hbounds ⟨hpos, hfits.2⟩
            rw [Option.filter_some_pos (by simp [fitsInt, hfits])]
            simp only [lookedUpTimeout]
            rw [if_neg hpos]

/-- The reader with libconfig leaves what the file gives. -/
theorem get_cfgLoadFileLibconfig {file : ConfigFile} {lookup : CString → Option Int}
    (hreads : LibconfigReads lookup file) (cfg : RuntimeConfig) (k : ConfigKey) :
    (cfgLoadFileLibconfig (some lookup) cfg).get k = file.value cfg k := by
  have hlookup := hreads k
  cases k with
  | port =>
      have hname : lit "server.port" = lit "server." ++ ConfigKey.port.name := by decide
      rw [← hname] at hlookup
      simp only [cfgLoadFileLibconfig, RuntimeConfig.get, hlookup]
      exact toNat_lookedUpPort (k := .port) rfl _ _
  | adminPort =>
      have hname : lit "server.admin_port" = lit "server." ++ ConfigKey.adminPort.name := by decide
      rw [← hname] at hlookup
      simp only [cfgLoadFileLibconfig, RuntimeConfig.get, hlookup]
      exact toNat_lookedUpPort (k := .adminPort) rfl _ _
  | adminTimeout =>
      have hname : lit "server.admin_timeout" = lit "server." ++ ConfigKey.adminTimeout.name := by
        decide
      rw [← hname] at hlookup
      simp only [cfgLoadFileLibconfig, RuntimeConfig.get, hlookup]
      exact lookedUpTimeout_eq _ _

/-! ## The reader without it -/

/-- The two readers leave the same configuration exactly if each key that the file gives
another number than it had is set to it by a piece of the text, and every piece that sets
a key to anything else than the file gives is followed by one that sets it to that. -/
theorem sameConfig_iff (file : ConfigFile) {lookup : CString → Option Int}
    (cfg : RuntimeConfig) (hreads : LibconfigReads lookup file) :
    cfgLoadFileFallback (some file.text) cfg = cfgLoadFileLibconfig (some lookup) cfg ↔
      ∀ k : ConfigKey,
        (∀ n, file.accepted k = some n → n ≠ cfg.get k →
          ∃ piece ∈ pieces file.text, lineSetting piece = some (k, n)) ∧
        ∀ before piece n after, pieces file.text = before ++ piece :: after →
          lineSetting piece = some (k, n) → n ≠ file.value cfg k →
          ∃ piece' ∈ after, lineSetting piece' = some (k, file.value cfg k) := by
  have hset : ∀ k : ConfigKey,
      (file.value cfg k ≠ cfg.get k →
        ∃ piece ∈ pieces file.text, lineSetting piece = some (k, file.value cfg k)) ↔
      ∀ n, file.accepted k = some n → n ≠ cfg.get k →
        ∃ piece ∈ pieces file.text, lineSetting piece = some (k, n) := by
    intro k
    unfold ConfigFile.value
    cases file.accepted k with
    | none => simp
    | some n => simp
  have hkey : ∀ k : ConfigKey,
      (cfgLoadFileFallback (some file.text) cfg).get k =
        lastWrite k (cfg.get k) ((pieces file.text).filterMap lineSetting) :=
    get_cfgLoadLines cfg file.text
  constructor
  · intro hsame k
    have hvalue := hkey k
    rw [hsame, get_cfgLoadFileLibconfig hreads] at hvalue
    obtain ⟨hmem, hlater⟩ := lastWrite_filterMap_eq_iff.mp hvalue.symm
    exact ⟨(hset k).mp hmem, hlater⟩
  · intro hfile
    refine RuntimeConfig.ext_get fun k => ?_
    rw [hkey, get_cfgLoadFileLibconfig hreads]
    exact lastWrite_filterMap_eq_iff.mpr ⟨(hset k).mpr (hfile k).1, (hfile k).2⟩

/-! ## The lines that the loop reads -/

/-- The pieces of a line. -/
def linePieces (l : CString) : List CString := pieces (l ++ [newline])

theorem newline_notMem_indent (indent : IndentText) : newline ∉ indent.val := by
  intro hmem
  exact absurd (indent.isBlank newline hmem) (by decide)

theorem newline_notMem_filler (f : Filler) : newline ∉ f.line := by
  cases f with
  | blank indent => exact newline_notMem_indent indent
  | comment indent slashes text =>
      have hmark : newline ∉ (if slashes then lit "//" else lit "#") := by
        cases slashes <;> decide
      simp only [Filler.line, List.mem_append, not_or]
      exact ⟨⟨newline_notMem_indent indent, hmark⟩, text.property⟩

/-- The characters of a number. -/
theorem mem_decimalInt {n : Int} {c : CChar} (h : c ∈ decimalInt n) :
    isDigit c = true ∨ c = chr '-' := by
  cases n with
  | ofNat n => exact Or.inl (isDigit_of_mem_decimal c h)
  | negSucc n =>
      rw [decimalInt_negSucc] at h
      rcases List.mem_cons.mp h with hsign | hdigit
      · exact Or.inr hsign
      · exact Or.inl (isDigit_of_mem_decimal c hdigit)

theorem decimalInt_ne_nil (n : Int) : decimalInt n ≠ [] := by
  cases n with
  | ofNat n => exact decimal_ne_nil n
  | negSucc n =>
      rw [decimalInt_negSucc]
      exact List.cons_ne_nil _ _

/-- A character that a setting can hold outside its key. -/
def besideKey (c : CChar) : Bool :=
  isBlank c || isDigit c || (lit "-=;").contains c || c == newline

/-- The characters of a setting. -/
theorem mem_setting {indent : IndentText} {k : ConfigKey} {n : Int} {c : CChar}
    (h : c ∈ (ConfigLine.setting indent k n).line ++ [newline]) :
    c ∈ k.name ∨ besideKey c = true := by
  simp only [ConfigLine.line, List.mem_append, List.mem_singleton] at h
  rcases h with ((((hindent | hname) | hequals) | hnumber) | hend) | hline
  · exact Or.inr (by simp [besideKey, indent.isBlank c hindent])
  · exact Or.inl hname
  · refine Or.inr ?_
    have hall : ∀ c ∈ lit " = ", besideKey c = true := List.all_eq_true.mp (by decide)
    exact hall c hequals
  · refine Or.inr ?_
    rcases mem_decimalInt hnumber with hdigit | hsign
    · simp [besideKey, hdigit]
    · rw [hsign]
      decide
  · refine Or.inr ?_
    have hall : ∀ c ∈ lit ";", besideKey c = true := List.all_eq_true.mp (by decide)
    exact hall c hend
  · rw [hline]
    exact Or.inr (by decide)

theorem newline_notMem_setting (indent : IndentText) (k : ConfigKey) (n : Int) :
    newline ∉ (ConfigLine.setting indent k n).line := by
  intro hmem
  simp only [ConfigLine.line, List.mem_append] at hmem
  rcases hmem with (((hindent | hname) | hequals) | hnumber) | hend
  · exact newline_notMem_indent indent hindent
  · cases k <;> exact absurd hname (by decide)
  · exact absurd hequals (by decide)
  · rcases mem_decimalInt hnumber with hdigit | hsign
    · exact absurd hdigit (by decide)
    · exact absurd hsign (by decide)
  · exact absurd hend (by decide)

theorem newline_notMem_line (line : ConfigLine) : newline ∉ line.line := by
  cases line with
  | filler f => exact newline_notMem_filler f
  | setting indent k n => exact newline_notMem_setting indent k n

/-- The loop reads the file line by line. -/
theorem pieces_text (file : ConfigFile) :
    pieces file.text = file.allLines.flatMap linePieces := by
  refine pieces_lines fun l hl => ?_
  simp only [ConfigFile.allLines, List.mem_append, List.mem_cons, List.mem_map] at hl
  rcases hl with (⟨f, -, rfl⟩ | rfl | ⟨line, -, rfl⟩) | rfl | ⟨f, -, rfl⟩
  · exact newline_notMem_filler f
  · decide
  · exact newline_notMem_line line
  · decide
  · exact newline_notMem_filler f

/-- A word with a character that is not in the text is not in it. -/
theorem strstr_eq_false {text : CString} (word : CString) {c : CChar} (hword : c ∈ word)
    (htext : c ∉ text) : strstr text word = false := by
  rw [strstr, decide_eq_false_iff_not]
  exact fun hinside => htext (hinside.subset hword)

/-- A setting names its key. -/
theorem keyNamed_setting (indent : IndentText) (k : ConfigKey) (n : Int) :
    keyNamed ((ConfigLine.setting indent k n).line ++ [newline]) = some k := by
  have hself : strstr ((ConfigLine.setting indent k n).line ++ [newline]) k.name = true := by
    rw [strstr, decide_eq_true_eq]
    refine ⟨indent.val, lit " = " ++ decimalInt n ++ lit ";" ++ [newline], ?_⟩
    simp only [ConfigLine.line, List.append_assoc]
  -- the names in the order in which the loop looks for them: `port` comes last, as
  -- `admin_port` contains it
  cases k with
  | adminPort => exact if_pos hself
  | adminTimeout =>
      have hp : chr 'p' ∉ (ConfigLine.setting indent .adminTimeout n).line ++ [newline] := by
        intro hmem
        rcases mem_setting hmem with hname | hbeside
        · exact absurd hname (by decide)
        · exact absurd hbeside (by decide)
      have hother := strstr_eq_false (lit "admin_port") (by decide) hp
      rw [keyNamed, if_neg (by rw [hother]; decide)]
      exact if_pos hself
  | port =>
      have ha : chr 'a' ∉ (ConfigLine.setting indent .port n).line ++ [newline] := by
        intro hmem
        rcases mem_setting hmem with hname | hbeside
        · exact absurd hname (by decide)
        · exact absurd hbeside (by decide)
      have hport := strstr_eq_false (lit "admin_port") (by decide) ha
      have htimeout := strstr_eq_false (lit "admin_timeout") (by decide) ha
      rw [keyNamed, if_neg (by rw [hport]; decide), if_neg (by rw [htimeout]; decide)]
      exact if_pos hself

/-- A blank ends a value. -/
theorem endsValue_of_isBlank {c : CChar} (hc : isBlank c = true) : endsValue c = true := by
  simp only [isBlank, Bool.or_eq_true, decide_eq_true_eq] at hc
  rw [endsValue, List.contains_eq_mem, decide_eq_true_eq]
  rcases hc with hspace | htab
  · rw [show c = chr ' ' from Subtype.ext hspace]
    decide
  · rw [show c = ⟨9, by decide⟩ from Subtype.ext htab]
    decide

/-- No character of a number does. -/
theorem not_endsValue_of_mem_decimalInt {n : Int} {c : CChar} (hc : c ∈ decimalInt n) :
    (!endsValue c) = true := by
  rcases mem_decimalInt hc with hdigit | hsign
  · have hall : ∀ c ∈ lit "; \t\r\n", (!isDigit c) = true := List.all_eq_true.mp (by decide)
    rw [endsValue, Bool.not_eq_true', List.contains_eq_mem, decide_eq_false_iff_not]
    intro hend
    have hnot := hall c hend
    rw [hdigit] at hnot
    cases hnot
  · rw [hsign]
    decide

/-- So a number does not begin with a blank. -/
theorem dropWhile_isBlank_decimalInt (n : Int) (rest : CString) :
    (decimalInt n ++ rest).dropWhile isBlank = decimalInt n ++ rest := by
  cases htext : decimalInt n with
  | nil => exact absurd htext (decimalInt_ne_nil n)
  | cons c digits =>
      refine List.dropWhile_cons_of_neg fun hblank => ?_
      have hc : c ∈ decimalInt n := htext ▸ List.mem_cons_self
      have hkept := not_endsValue_of_mem_decimalInt hc
      rw [endsValue_of_isBlank hblank] at hkept
      cases hkept

/-- The text behind the `=` of a setting, up to the `;`. -/
theorem value_setting (indent : IndentText) (k : ConfigKey) (n : Int) :
    ∃ eq, ((ConfigLine.setting indent k n).line ++ [newline]).dropWhile (fun c => c ≠ chr '=') =
        chr '=' :: eq ∧
      (eq.dropWhile isBlank).takeWhile (fun c => !endsValue c) = decimalInt n := by
  have hparts : (ConfigLine.setting indent k n).line ++ [newline] =
      (indent.val ++ k.name ++ lit " ") ++
        chr '=' :: (lit " " ++ (decimalInt n ++ semicolon :: [newline])) := by
    have hequals : lit " = " = lit " " ++ chr '=' :: lit " " := by decide
    have hend : lit ";" = [semicolon] := by decide
    simp only [ConfigLine.line, hequals, hend, List.append_assoc, List.cons_append, List.nil_append]
  -- the first `=` is the one of the setting
  have hfront : ∀ c ∈ indent.val ++ k.name ++ lit " ", decide (c ≠ chr '=') = true := by
    intro c hc
    rw [decide_eq_true_eq]
    rintro rfl
    simp only [List.mem_append] at hc
    rcases hc with (hindent | hname) | hblank
    · exact absurd (indent.isBlank _ hindent) (by decide)
    · cases k <;> exact absurd hname (by decide)
    · exact absurd hblank (by decide)
  refine ⟨lit " " ++ (decimalInt n ++ semicolon :: [newline]), ?_, ?_⟩
  · rw [hparts, List.dropWhile_append_of_pos hfront]
    exact List.dropWhile_cons_of_neg (by decide)
  · have hblank : ∀ c ∈ lit " ", isBlank c = true := List.all_eq_true.mp (by decide)
    rw [List.dropWhile_append_of_pos hblank, dropWhile_isBlank_decimalInt,
      List.takeWhile_append_of_pos fun c => not_endsValue_of_mem_decimalInt,
      List.takeWhile_cons_of_neg (by decide), List.append_nil]

/-- Within the bounds that the loop tests. -/
def ConfigKey.inLoopBounds (k : ConfigKey) (n : Int) : Bool := decide (1 ≤ n) && decide (n ≤ k.most)

theorem parseNumber_decimalInt (k : ConfigKey) (n : Int) :
    parseNumber (decimalInt n) 1 k.most = if k.inLoopBounds n then some n else none := by
  have hiff : k.inLoopBounds n = true ↔ 1 ≤ n ∧ n ≤ k.most := by
    rw [ConfigKey.inLoopBounds, Bool.and_eq_true, decide_eq_true_eq, decide_eq_true_eq]
  unfold parseNumber
  simp only [strtol_decimalInt, ne_eq, not_true_eq_false, false_or]
  by_cases hin : 1 ≤ n ∧ n ≤ k.most
  · rw [if_pos (hiff.mpr hin), if_neg (by omega)]
  · rw [if_neg (mt hiff.mp hin), if_pos (by omega)]

/-- What a setting that is read whole sets. -/
theorem lineSetting_setting (indent : IndentText) (k : ConfigKey) (n : Int) :
    lineSetting ((ConfigLine.setting indent k n).line ++ [newline]) =
      if k.inLoopBounds n then some (k, n) else none := by
  obtain ⟨eq, hdrop, hvalue⟩ := value_setting indent k n
  unfold lineSetting
  simp only [hdrop, hvalue, keyNamed_setting, Option.bind_some, parseNumber_decimalInt]
  have hsome : (decimalInt n).length ≠ 0 := fun h =>
    decimalInt_ne_nil n (List.length_eq_zero_iff.mp h)
  by_cases hin : k.inLoopBounds n = true
  · have hfits : (decimalInt n).length < valueSize := by
      rw [ConfigKey.inLoopBounds, Bool.and_eq_true, decide_eq_true_eq, decide_eq_true_eq] at hin
      have hmost : k.most < 10 ^ 5 := by cases k <;> decide
      obtain ⟨m, rfl⟩ := Int.eq_ofNat_of_zero_le (show 0 ≤ n by omega)
      have hlength := length_decimal_le (n := m) (by decide : 0 < 5) (by omega)
      exact Nat.lt_of_le_of_lt hlength (by decide)
    rw [if_neg (by omega)]
    simp only [if_pos hin, Option.map_some]
  · simp only [if_neg hin, Option.map_none, ite_self]

/-! ## Plain files -/

/-- What a line sets in the loop. -/
def ConfigLine.setting? : ConfigLine → Option (ConfigKey × Int)
  | filler _ => none
  | setting _ k n => if k.inLoopBounds n then some (k, n) else none

namespace ConfigFile

/-- The lines that say nothing. -/
def fillers (file : ConfigFile) : List Filler :=
  file.before ++ file.lines.filterMap (fun
    | .filler f => some f
    | .setting _ _ _ => none) ++ file.after

/-- A plain file: no piece of a comment sets a key, and a setting is read whole. -/
structure Plain (file : ConfigFile) : Prop where
  silent : ∀ f ∈ file.fillers, ∀ piece ∈ linePieces f.line, lineSetting piece = none
  whole : ∀ indent k n, .setting indent k n ∈ file.lines →
    (ConfigLine.setting indent k n).line.length < lineSize - 1

end ConfigFile

/-- A line that `fgets` reads at once sets what it says. -/
theorem filterMap_linePieces {l : CString} (hl : newline ∉ l) (hlength : l.length < lineSize - 1) :
    (linePieces l).filterMap lineSetting = (lineSetting (l ++ [newline])).toList := by
  rw [linePieces, pieces_short hl hlength, pieces]
  cases h : lineSetting (l ++ [newline]) with
  | none => simp [h]
  | some s => simp [h]

/-- The loop takes from a plain file what its lines set. -/
theorem filterMap_pieces_plain {file : ConfigFile} (hplain : file.Plain) :
    (pieces file.text).filterMap lineSetting = file.lines.filterMap ConfigLine.setting? := by
  have hfillers : ∀ fs : List Filler, (∀ f ∈ fs, f ∈ file.fillers) →
      ((fs.map Filler.line).flatMap linePieces).filterMap lineSetting = [] := by
    intro fs hfs
    refine List.filterMap_eq_nil_iff.mpr fun piece hpiece => ?_
    obtain ⟨l, hl, hmem⟩ := List.mem_flatMap.mp hpiece
    obtain ⟨f, hf, rfl⟩ := List.mem_map.mp hl
    exact hplain.silent f (hfs f hf) piece hmem
  have hlines : ∀ lines : List ConfigLine, (∀ line ∈ lines, line ∈ file.lines) →
      ((lines.map ConfigLine.line).flatMap linePieces).filterMap lineSetting =
        lines.filterMap ConfigLine.setting? := by
    intro lines hmem
    induction lines with
    | nil => rfl
    | cons line lines ih =>
        have hrest := ih fun l hl => hmem l (List.mem_cons_of_mem line hl)
        have hline := hmem line List.mem_cons_self
        rw [List.map_cons, List.flatMap_cons, List.filterMap_append, hrest, List.filterMap_cons]
        cases line with
        | filler f =>
            have hfiller : f ∈ file.fillers := by
              refine List.mem_append_left _ (List.mem_append_right _ ?_)
              exact List.mem_filterMap.mpr ⟨_, hline, rfl⟩
            rw [show (ConfigLine.filler f).line = f.line from rfl,
              List.filterMap_eq_nil_iff.mpr (hplain.silent f hfiller)]
            rfl
        | setting indent k n =>
            have hwhole := hplain.whole indent k n hline
            rw [filterMap_linePieces (newline_notMem_setting indent k n) hwhole,
              lineSetting_setting, ConfigLine.setting?]
            cases k.inLoopBounds n <;> rfl
  -- the lines around the settings set nothing
  have hopen : (linePieces (lit "server: \x7b")).filterMap lineSetting = [] := by
    rw [filterMap_linePieces (by decide) (by decide)]
    decide
  have hclose : (linePieces (lit "\x7d;")).filterMap lineSetting = [] := by
    rw [filterMap_linePieces (by decide) (by decide)]
    decide
  have hbefore := hfillers file.before fun f hf =>
    List.mem_append_left _ (List.mem_append_left _ hf)
  have hafter := hfillers file.after fun f hf => List.mem_append_right _ hf
  rw [pieces_text, ConfigFile.allLines]
  simp only [List.flatMap_append, List.flatMap_cons, List.filterMap_append, hbefore, hafter, hopen,
    hclose, hlines file.lines fun _ h => h, List.nil_append, List.append_nil]

/-- Without a line of a key the loop leaves its number. -/
theorem lastWrite_of_key_notMem {lines : List ConfigLine} {k : ConfigKey}
    (hk : k ∉ lines.filterMap ConfigLine.key?) (d : Int) :
    lastWrite k d (lines.filterMap ConfigLine.setting?) = d := by
  refine lastWrite_of_notMem fun n hmem => hk ?_
  obtain ⟨line, hline, hsets⟩ := List.mem_filterMap.mp hmem
  refine List.mem_filterMap.mpr ⟨line, hline, ?_⟩
  cases line with
  | filler f => cases hsets
  | setting indent k' n' =>
      rw [ConfigLine.setting?] at hsets
      split at hsets
      · exact congrArg (some ·.1) (Option.some.inj hsets)
      · cases hsets

/-- A key that is set once has the number of its line, if the loop accepts it. -/
theorem lastWrite_settings {lines : List ConfigLine}
    (once : (lines.filterMap ConfigLine.key?).Nodup)
    (k : ConfigKey) (d : Int) :
    lastWrite k d (lines.filterMap ConfigLine.setting?) =
      ((lines.findSome? (ConfigLine.number? k)).filter k.inLoopBounds).getD d := by
  induction lines with
  | nil => rfl
  | cons line lines ih =>
      cases line with
      | filler f => exact ih once
      | setting indent k' n =>
          have honce : (k' :: lines.filterMap ConfigLine.key?).Nodup := once
          obtain ⟨hfresh, hrest⟩ := List.nodup_cons.mp honce
          by_cases hk : k' = k
          · subst hk
            -- no later line has this key
            have hkept := lastWrite_of_key_notMem hfresh
            rw [List.filterMap_cons, List.findSome?_cons, ConfigLine.number?, if_pos rfl,
              ConfigLine.setting?]
            cases hin : k'.inLoopBounds n with
            | true =>
                rw [Option.filter_some_pos hin]
                simp only [if_true]
                rw [lastWrite, if_pos rfl, hkept]
                rfl
            | false =>
                rw [Option.filter_some_neg hin]
                exact hkept d
          · rw [List.filterMap_cons, List.findSome?_cons, ConfigLine.number?, if_neg hk,
              ConfigLine.setting?]
            cases k'.inLoopBounds n with
            | true =>
                simp only [if_true]
                rw [lastWrite, if_neg hk]
                exact ih hrest
            | false => exact ih hrest

/-- Of a plain file both readers leave the same configuration exactly if it has no timeout
that only one of them accepts. -/
theorem plainFile_agree_iff {file : ConfigFile} (hplain : file.Plain)
    {lookup : CString → Option Int} (cfg : RuntimeConfig) (hreads : LibconfigReads lookup file) :
    cfgLoadFileFallback (some file.text) cfg = cfgLoadFileLibconfig (some lookup) cfg ↔
      ∀ n, file.number? .adminTimeout = some n → 86400 < n → n ≤ 2147483647 →
        n = cfg.adminTimeoutSec := by
  have hloop : ∀ k, (cfgLoadFileFallback (some file.text) cfg).get k =
      ((file.number? k).filter k.inLoopBounds).getD (cfg.get k) := by
    intro k
    rw [cfgLoadFileFallback, get_cfgLoadLines, filterMap_pieces_plain hplain,
      lastWrite_settings file.once]
    rfl
  have hlibconfig := get_cfgLoadFileLibconfig hreads cfg
  have htimeout : ∀ n, ConfigKey.adminTimeout.inBounds n = true ↔ 0 < n ∧ n ≤ 2147483647 :=
    fun n => ConfigKey.inBounds_iff
  have hloopTimeout : ∀ n, ConfigKey.adminTimeout.inLoopBounds n = true ↔ 1 ≤ n ∧ n ≤ 86400 :=
    fun n => by rw [ConfigKey.inLoopBounds, Bool.and_eq_true, decide_eq_true_eq, decide_eq_true_eq,
      ConfigKey.most]
  constructor
  · intro hsame n hnumber hmore hmost
    have hget := hloop .adminTimeout
    have hrefused : ConfigKey.adminTimeout.inLoopBounds n = false := by
      rw [Bool.eq_false_iff, ne_eq, hloopTimeout]
      omega
    rw [hsame, hlibconfig, ConfigFile.value, ConfigFile.accepted, hnumber,
      Option.filter_some_pos ((htimeout n).mpr ⟨by omega, hmost⟩),
      Option.filter_some_neg hrefused] at hget
    exact hget
  · intro hfile
    refine RuntimeConfig.ext_get fun k => ?_
    rw [hloop, hlibconfig, ConfigFile.value, ConfigFile.accepted]
    cases k with
    | port => rfl
    | adminPort => rfl
    | adminTimeout =>
        cases hnumber : file.number? .adminTimeout with
        | none => rfl
        | some n =>
            -- the loop stops at a day, `config_lookup_int` at the end of `int`
            by_cases hloopin : 1 ≤ n ∧ n ≤ 86400
            · rw [Option.filter_some_pos ((hloopTimeout n).mpr hloopin),
                Option.filter_some_pos ((htimeout n).mpr (by omega))]
            · rw [Option.filter_some_neg (Bool.eq_false_iff.mpr (mt (hloopTimeout n).mp hloopin))]
              by_cases hin : 0 < n ∧ n ≤ 2147483647
              · rw [Option.filter_some_pos ((htimeout n).mpr hin)]
                exact (hfile n hnumber (by omega) hin.2).symm
              · rw [Option.filter_some_neg (Bool.eq_false_iff.mpr (mt (htimeout n).mp hin))]

/-! ## When they agree -/

/-- The two readers leave the same configuration exactly if each key that the file gives
another number than it had is set to it by a piece of the text, and every piece that sets
a key to anything else than the file gives is followed by one that sets it to that.  For
a plain file that is: it has no timeout above a day that an `int` holds, but the one that
was there. -/
theorem readers_agree_iff (file : ConfigFile) {lookup : CString → Option Int}
    (cfg : RuntimeConfig) (hreads : LibconfigReads lookup file) :
    (cfgLoadFileFallback (some file.text) cfg = cfgLoadFileLibconfig (some lookup) cfg ↔
      ∀ k : ConfigKey,
        (∀ n, file.accepted k = some n → n ≠ cfg.get k →
          ∃ piece ∈ pieces file.text, lineSetting piece = some (k, n)) ∧
        ∀ before piece n after, pieces file.text = before ++ piece :: after →
          lineSetting piece = some (k, n) → n ≠ file.value cfg k →
          ∃ piece' ∈ after, lineSetting piece' = some (k, file.value cfg k)) ∧
      (file.Plain →
        (cfgLoadFileFallback (some file.text) cfg = cfgLoadFileLibconfig (some lookup) cfg ↔
          ∀ n, file.number? .adminTimeout = some n → 86400 < n → n ≤ 2147483647 →
            n = cfg.adminTimeoutSec)) :=
  ⟨sameConfig_iff file cfg hreads, fun hplain => plainFile_agree_iff hplain cfg hreads⟩

/-- Four spaces. -/
def fourSpaces : IndentText := ⟨lit "    ", by decide⟩

/-- A file in the manner of `config.cfg`. -/
def usualConfig : ConfigFile where
  before := [.comment ⟨[], by decide⟩ false ⟨lit " valori implicite", by decide⟩]
  lines :=
    [.filler (.comment fourSpaces false ⟨lit " portul TCP pentru clienti", by decide⟩),
      .setting fourSpaces .port 9000,
      .filler (.blank ⟨[], by decide⟩),
      .setting fourSpaces .adminPort 9001,
      .setting fourSpaces .adminTimeout 300]
  after := []
  once := by decide

/-- The answers of libconfig for that file. -/
def usualConfigLookup (path : CString) : Option Int :=
  if path = lit "server.port" then some 9000
  else if path = lit "server.admin_port" then some 9001
  else if path = lit "server.admin_timeout" then some 300
  else none

theorem plain_usualConfig : usualConfig.Plain where
  silent := by decide +kernel
  whole := by
    intro indent k n hmem
    simp only [usualConfig, List.mem_cons, List.not_mem_nil, or_false, reduceCtorEq, false_or,
      ConfigLine.setting.injEq] at hmem
    rcases hmem with ⟨rfl, rfl, rfl⟩ | ⟨rfl, rfl, rfl⟩ | ⟨rfl, rfl, rfl⟩ <;> decide +kernel

theorem readers_agree_usual :
    LibconfigReads usualConfigLookup usualConfig ∧
      cfgLoadFileFallback (some usualConfig.text) cfgDefaults =
        cfgLoadFileLibconfig (some usualConfigLookup) cfgDefaults := by
  have hreads : LibconfigReads usualConfigLookup usualConfig := by
    intro k
    cases k <;> decide
  refine ⟨hreads, ((readers_agree_iff usualConfig cfgDefaults hreads).2 plain_usualConfig).mpr ?_⟩
  intro n hnumber hmore hmost
  have hthree : usualConfig.number? .adminTimeout = some 300 := by decide
  rw [hthree] at hnumber
  have hn := Option.some.inj hnumber
  omega

/-! ## A comment that sets a port -/

/-- A port, and a comment below it that names another one. -/
def commentedPort : ConfigFile where
  before := []
  lines :=
    [.setting fourSpaces .port 18081,
      .filler (.comment fourSpaces false ⟨lit " port = 9999", by decide⟩)]
  after := []
  once := by decide

/-- The answers of libconfig for that file. -/
def commentedPortLookup (path : CString) : Option Int :=
  if path = lit "server.port" then some 18081 else none

/-- The reader without libconfig takes the port from the comment. -/
theorem readers_disagree_commentedPort :
    ¬ ∀ (file : ConfigFile) (lookup : CString → Option Int) (cfg : RuntimeConfig),
      LibconfigReads lookup file →
        cfgLoadFileFallback (some file.text) cfg = cfgLoadFileLibconfig (some lookup) cfg := by
  intro hagree
  have hreads : LibconfigReads commentedPortLookup commentedPort := by
    intro k
    cases k <;> decide
  have hsame := hagree commentedPort commentedPortLookup cfgDefaults hreads
  have hfallback :
      cfgLoadFileFallback (some commentedPort.text) cfgDefaults = ⟨9999, 18082, 60⟩ := by
    decide +kernel
  have hlibconfig : cfgLoadFileLibconfig (some commentedPortLookup) cfgDefaults =
      ⟨18081, 18082, 60⟩ := by
    decide +kernel
  rw [hfallback, hlibconfig] at hsame
  exact absurd hsame (by decide)

end SqlCodeGenerator
