import RoomBot.Proofs.Settings.Assigned
import RoomBot.Settings.Config

/-!
# Settings files as they are written

Whoever writes a settings file writes comments, leaves lines blank, and puts assignments on the
other lines, each as a name, `=` and a value in quotes of either kind, with as many blanks around
name and value as one likes (`Line`).  Lines end as they do on any system, and the last one need not
end at all (`Written`).

What is in quotes is the value to the letter, whatever it is: quotes, blanks, `#` and `=` included.
Only line feeds cannot be written, and NULs should not be.  So after such a file was read every
variable has the value that it had before or else the value that was written for it last, there are
no others, and the configuration is the one that these variables give
(`Environment.withFile_written`).
-/

namespace RoomBot.Environment

open Text (IsTrimmed isBlank isBlankText trim trim_of_isBlankText)

/-! ## Lines -/

/-- A name as it may stand in front of `=`. -/
structure IsVariable (name : String) : Prop where
  trimmed : IsTrimmed name.toList
  equals : '=' ∉ name.toList
  nul : '\x00' ∉ name.toList
  hash : name.toList.head? ≠ some '#'

lemma isVariable_of_isName {name : String} (h : Command.isName name = true) :
    IsVariable name where
  trimmed := (Command.isWord_of_isName h).isTrimmed (Command.ne_nil_of_isName h)
  equals hmem := absurd (Command.isNameChar_of_mem h '=' hmem) (by decide)
  nul hmem := absurd (Command.isNameChar_of_mem h '\x00' hmem) (by decide)
  hash hhead := absurd (Command.isNameChar_of_mem h '#' (List.mem_of_mem_head? hhead)) (by decide)

/-- A value in quotes. -/
def inQuotes (quote : Char) (value : String) : List Char := [quote] ++ value.toList ++ [quote]

/-- A line, and the assignment on it if there is one. -/
inductive Line : List Char → Option (String × String) → Prop
  | blank {line : List Char} : isBlankText line = true → Line line none
  | comment {left rest : List Char} : isBlankText left = true → Line (left ++ '#' :: rest) none
  | remark {line : List Char} : '=' ∉ line → Line line none
  | assignment {name value : String} {quote : Char} {left before after right : List Char} :
      IsVariable name → isQuote quote = true → '\x00' ∉ value.toList →
      isBlankText left = true → isBlankText before = true → isBlankText after = true →
      isBlankText right = true →
      Line (left ++ ((name.toList ++ before ++ '=' :: (after ++ inQuotes quote value)) ++ right))
        (some (name, value))

/-- A text of lines, and the assignments in it. Between two lines there is a line feed, with a
carriage return in front of it or without. -/
inductive Written : List Char → List (String × String) → Prop
  | last {line : List Char} {made : Option (String × String)} :
      '\n' ∉ line → Line line made → Written line made.toList
  | cons {line ending rest : List Char} {made : Option (String × String)}
      {assigned : List (String × String)} :
      '\n' ∉ line → Line line made → ending = ['\n'] ∨ ending = ['\r', '\n'] →
      Written rest assigned → Written (line ++ ending ++ rest) (made.toList ++ assigned)

variable {line text : List Char} {made : Option (String × String)}
  {assigned : List (String × String)} {name value : String} {quote : Char}

/-! ## Reading one line -/

lemma isBlank_of_isQuote (h : isQuote quote = true) : isBlank quote = false := by
  simp only [isQuote, Bool.or_eq_true, beq_iff_eq] at h
  rcases h with rfl | rfl
  · decide
  · decide

lemma unquote_inQuotes (h : isQuote quote = true) (value : String) :
    unquote (inQuotes quote value) = value.toList := by
  simp [unquote, inQuotes, h]

lemma isTrimmed_inQuotes (h : isQuote quote = true) (value : String) :
    IsTrimmed (inQuotes quote value) where
  first := ⟨quote, value.toList ++ [quote], rfl, isBlank_of_isQuote h⟩
  last := ⟨[quote] ++ value.toList, quote, rfl, isBlank_of_isQuote h⟩

lemma assignment?_of_notMem (h : '=' ∉ line) : assignment? line = none := by
  have htrim : '=' ∉ trim line := fun hmem => h ((Text.trim_sublist line).subset hmem)
  simp only [assignment?, Text.dropWhile_of_notMem htrim]

lemma assignment?_of_trim {before value : List Char} (htrim : trim line = before ++ '=' :: value)
    (hbefore : '=' ∉ before) :
    assignment? line =
      if (trim before).isEmpty || (trim line).head? == some '#' then none
      else some (String.ofList (trim before), String.ofList (unquote (trim value))) := by
  obtain ⟨htake, hdrop⟩ := Text.span_at hbefore value
  rw [← htrim] at htake hdrop
  simp only [assignment?, htake, hdrop]

lemma assignment?_comment {left : List Char} (hleft : isBlankText left = true)
    (rest : List Char) : assignment? (left ++ '#' :: rest) = none := by
  have hhash : IsTrimmed ['#'] := ⟨⟨'#', [], rfl, by decide⟩, ⟨[], '#', rfl, by decide⟩⟩
  have htrim := hhash.trim_append_append hleft rest
  have hhead : (trim (left ++ '#' :: rest)).head? = some '#' := by
    rw [List.singleton_append] at htrim
    rw [htrim]
    rfl
  simp only [assignment?, hhead, BEq.rfl, Bool.or_true, if_true]
  split
  · rfl
  · rfl

/-- A name and a value in quotes come out of all the blanks around them. -/
lemma IsVariable.assignment?_inQuotes (hname : IsVariable name) (hquote : isQuote quote = true)
    {left before after right : List Char} (hleft : isBlankText left = true)
    (hbefore : isBlankText before = true) (hafter : isBlankText after = true)
    (hright : isBlankText right = true) (value : String) :
    assignment?
        (left ++ ((name.toList ++ before ++ '=' :: (after ++ inQuotes quote value)) ++ right)) =
      some (name, value) := by
  have hquotes := isTrimmed_inQuotes hquote value
  have hinside : IsTrimmed (name.toList ++ before ++ '=' :: (after ++ inQuotes quote value)) := by
    have hall := hname.trimmed.append hquotes (before ++ '=' :: after)
    simpa using hall
  have htrim := hinside.trim_between hleft hright
  have hequals : '=' ∉ name.toList ++ before := by
    rw [List.mem_append, not_or]
    exact ⟨hname.equals, Text.notMem_of_isBlankText (by decide) hbefore⟩
  have hkey : trim (name.toList ++ before) = name.toList :=
    @IsTrimmed.trim_between name.toList [] before hname.trimmed rfl hbefore
  have hvalue : trim (after ++ inQuotes quote value) = inQuotes quote value :=
    hquotes.trim_append (List.all_eq_true.1 hafter)
  -- The line begins as the name does, and is no comment.
  obtain ⟨c, rest, hfirst, -⟩ := hname.trimmed.first
  have hhash : c ≠ '#' := by
    rintro rfl
    exact hname.hash (by rw [hfirst, List.head?_cons])
  rw [assignment?_of_trim htrim hequals, htrim, hkey, hvalue, unquote_inQuotes hquote,
    String.ofList_toList, String.ofList_toList, if_neg]
  simp [hfirst, hhash]

/-- What is read from a line is what was written there. -/
lemma Line.assignment?_eq (h : Line line made) : assignment? line = made := by
  cases h with
  | blank hblank => exact assignment?_of_notMem (Text.notMem_of_isBlankText (by decide) hblank)
  | comment hleft => exact assignment?_comment hleft _
  | remark hequals => exact assignment?_of_notMem hequals
  | assignment hname hquote _ hleft hbefore hafter hright =>
    exact hname.assignment?_inQuotes hquote hleft hbefore hafter hright _

/-- A carriage return at the end of a line is one more blank, or one more character that is
skipped. -/
lemma Line.carriageReturn (h : Line line made) : Line (line ++ ['\r']) made := by
  have hblank : ∀ {blanks}, isBlankText blanks = true → isBlankText (blanks ++ ['\r']) = true := by
    intro blanks hblanks
    rw [isBlankText, List.all_append, ← isBlankText, hblanks]
    rfl
  cases h with
  | blank hline => exact .blank (hblank hline)
  | remark hequals => exact .remark (by simpa using hequals)
  | @comment left rest hleft =>
    rw [List.append_assoc, List.cons_append]
    exact .comment hleft
  | assignment hname hquote hnul hleft hbefore hafter hright =>
    rw [List.append_assoc, List.append_assoc]
    exact .assignment hname hquote hnul hleft hbefore hafter (hblank hright)

/-! ## Reading the file -/

/-- The assignments in a text are read line by line. -/
lemma Written.filterMap_eq (h : Written text assigned) :
    (text.splitOn '\n').filterMap assignment? = assigned := by
  induction h with
  | @last line made hbreak hline =>
    rw [List.splitOn_eq_singleton hbreak, List.filterMap_cons, hline.assignment?_eq]
    cases made <;> rfl
  | @cons line ending rest made assigned hbreak hline hending _ ih =>
    -- With the carriage return on the line, all that is between two lines is a line feed.
    obtain ⟨ended, hsplit, hnone, hended⟩ : ∃ ended, line ++ ending ++ rest = ended ++ '\n' :: rest ∧
        '\n' ∉ ended ∧ Line ended made := by
      rcases hending with rfl | rfl
      · exact ⟨line, by simp, hbreak, hline⟩
      · exact ⟨line ++ ['\r'], by simp, by simpa using hbreak, hline.carriageReturn⟩
    rw [hsplit, List.splitOn_append_cons_self_of_not_mem hnone, List.filterMap_cons,
      hended.assignment?_eq, ih]
    cases made <;> rfl

lemma Line.isSettable (h : Line line (some (name, value))) : isSettable name value = true := by
  cases h with
  | assignment hname _ hnul _ _ _ _ =>
    obtain ⟨c, rest, hfirst, -⟩ := hname.trimmed.first
    exact (isSettable_iff (by simp [hfirst]) hname.equals value).2 ⟨hname.nul, hnul⟩

lemma Written.isSettable (h : Written text assigned) :
    ∀ name value, (name, value) ∈ assigned → isSettable name value = true := by
  induction h with
  | last _ hline =>
    intro name value hmem
    exact (Option.mem_toList.1 hmem ▸ hline).isSettable
  | cons _ hline _ _ ih =>
    intro name value hmem
    rcases List.mem_append.1 hmem with hhere | hlater
    · exact (Option.mem_toList.1 hhere ▸ hline).isSettable
    · exact ih name value hlater

/-- After a settings file was read that is written so, a variable has the value that it had before;
if it had none, the value that was written for it last; and otherwise it is not set. The program does
not stop, and starts with the configuration that these variables give. -/
theorem withFile_written (order : Order) (env : Environment) {text : String}
    {assigned : List (String × String)} (h : Written text.toList assigned) :
    ∃ after, env.withFile order (some text.toUTF8) = ⟨after, false⟩ ∧
      (∀ name : String, after[name]? = env[name]?.or (lastValue? assigned name)) ∧
      Config.load order env (some text.toUTF8) =
        (some (Config.ofVariables fun name => env[name]?.or (lastValue? assigned name)), after) := by
  have hread : assignments text = assigned := h.filterMap_eq
  have hgo : (env.withFile order (some text.toUTF8)).stopped = false := by
    rw [← Bool.not_eq_true, stopped_withFile_iff]
    rintro ⟨name, value, ⟨-, hlast⟩, hrefused⟩
    rw [hread] at hlast
    rw [h.isSettable name value (mem_of_lastValue? hlast)] at hrefused
    contradiction
  have hvalue : ∀ name : String, (env.withFile order (some text.toUTF8)).env[name]? =
      env[name]?.or (lastValue? assigned name) := by
    intro name
    rw [getElem?_withFile hgo, hread]
  refine ⟨(env.withFile order (some text.toUTF8)).env, by rw [← hgo], hvalue, ?_⟩
  rw [Config.load, hgo, Config.ofEnvironment, funext hvalue]
  rfl

/-- A comment with an assignment in it, a value with quotes, blanks, `#` and `=` in it, a line that
ends in the other fashion, and a variable that is written twice. -/
theorem withFile_written_twice :
    let env : Environment := {("COMMAND_PREFIX", "/")}
    let text := "# A=0\r\nA =\t\" it's #1 = 'one' \"\n\nA='2'\r\nCOMMAND_PREFIX = \"?\""
    let assigned := [("A", " it's #1 = 'one' "), ("A", "2"), ("COMMAND_PREFIX", "?")]
    Written text.toList assigned ∧
      ∃ after, env.withFile .byName (some text.toUTF8) = ⟨after, false⟩ ∧ after["A"]? = some "2" ∧
        after["COMMAND_PREFIX"]? = some "/" := by
  intro env text assigned
  have hletter : IsVariable "A" := isVariable_of_isName (by decide)
  have hprefix : IsVariable "COMMAND_PREFIX" := isVariable_of_isName (by decide)
  have hone : Line ([] ++ (("A".toList ++ [' '] ++ '=' :: (['\t'] ++
      inQuotes '"' " it's #1 = 'one' ")) ++ [])) (some ("A", " it's #1 = 'one' ")) :=
    .assignment hletter (by decide) (by decide) rfl (by decide) (by decide) rfl
  have htwo : Line ([] ++ (("A".toList ++ [] ++ '=' :: ([] ++ inQuotes '\x27' "2")) ++ []))
      (some ("A", "2")) :=
    .assignment hletter (by decide) (by decide) rfl rfl rfl rfl
  have hthree : Line ([] ++ (("COMMAND_PREFIX".toList ++ [' '] ++ '=' :: ([' '] ++
      inQuotes '"' "?")) ++ [])) (some ("COMMAND_PREFIX", "?")) :=
    .assignment hprefix (by decide) (by decide) rfl (by decide) (by decide) rfl
  have hcomment : Line ([] ++ '#' :: " A=0".toList) none := .comment rfl
  have hblank : Line [] none := .blank rfl
  have hlines := Written.cons (by decide) hcomment (.inr rfl) <|
    .cons (by decide) hone (.inl rfl) <| .cons (by decide) hblank (.inl rfl) <|
      .cons (by decide) htwo (.inr rfl) <| .last (by decide) hthree
  have hwritten : Written text.toList assigned := by
    convert hlines using 1
    · decide +kernel
    · rfl
  obtain ⟨after, hafter, hvalues, -⟩ := withFile_written .byName env hwritten
  refine ⟨hwritten, after, hafter, ?_, ?_⟩
  · rw [hvalues]
    decide
  · rw [hvalues]
    decide

end RoomBot.Environment
