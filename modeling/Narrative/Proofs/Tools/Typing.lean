import Mathlib.Tactic.Common
import Narrative.Proofs.Bundle.Proper
import Narrative.Proofs.Session.Offer
import Narrative.Proofs.Story.Rereading
import Narrative.Proofs.Text.Trimming
import Narrative.Proofs.Tools.Waiting

/-!
# What can be typed

A line answers the event on screen when it is the name of an action that is offered, or its number
on screen.  A command word takes a line for itself, whatever stands behind it, so an action whose
name begins with such a word is only reached by its number.
-/

namespace Narrative.Tools.Player

open Session Display

/-! ### Commands -/

/-- The words that are commands as they stand. -/
def commandWords : List (String × Command) :=
  [("quit", .quit), ("exit", .quit), ("q", .quit), ("help", .help), ("h", .help), ("?", .help),
    ("state", .state), ("next", .next)]

/-- A line is one of the commands that the help lists, or short for one of them. -/
inductive Documented : String → Prop
  | word {word : String} {c : Command} (h : (word, c) ∈ commandWords) : Documented word
  | save (name : String) : Documented ("save " ++ name)
  | load (name : String) : Documented ("load " ++ name)

/-- A line has more behind a word for a command, none of which takes an argument. -/
def Overlong (line : String) (c : Command) : Prop :=
  ∃ word rest, (word, c) ∈ commandWords ∧ line = word ++ " " ++ rest

/-- A line is its first word, or goes on behind a blank. -/
theorem splitWord_cases (line : String) :
    ∃ word, (splitWord line.toList).1 = word.toList ∧
      (line = word ∧ (splitWord line.toList).2 = [] ∨ ∃ rest, line = word ++ " " ++ rest) := by
  unfold splitWord
  cases hcut : Text.cut [' '] line.toList with
  | none => exact ⟨line, rfl, Or.inl ⟨rfl, rfl⟩⟩
  | some parts =>
    have hline := Text.eq_of_cut hcut
    refine ⟨String.ofList parts.1, by simp, Or.inr ⟨String.ofList parts.2, ?_⟩⟩
    rw [← String.toList_inj]
    simp [hline]

/-- A line is looked up among the command words by its first word. -/
theorem read_eq (line : List Char) : Command.read line =
    (commandWords.lookup (String.ofList (splitWord line).1)).getD
      (if String.ofList (splitWord line).1 = "save" ∧ ¬ (splitWord line).2.isEmpty then
        .save (String.ofList (splitWord line).2)
      else if String.ofList (splitWord line).1 = "load" ∧ ¬ (splitWord line).2.isEmpty then
        .load (String.ofList (splitWord line).2)
      else .respond (String.ofList line)) := by
  unfold Command.read
  dsimp only
  generalize String.ofList (splitWord line).1 = word
  have hlookup : commandWords.lookup word =
      if ["quit", "exit", "q"].contains word then some .quit
      else if ["help", "h", "?"].contains word then some .help
      else if word = "state" then some .state
      else if word = "next" then some .next
      else none := by
    simp only [commandWords, List.contains_cons, List.lookup_cons, List.lookup_nil]
    grind
  rw [hlookup]
  split_ifs <;> rfl

/-- A command word is carried out, whatever stands behind it. -/
theorem read_of_overlong {line : String} {c : Command} (h : Overlong line c) :
    Command.read line.toList = c := by
  obtain ⟨word, rest, hmem, rfl⟩ := h
  have hentries : ∀ entry ∈ commandWords,
      ' ' ∉ entry.1.toList ∧ commandWords.lookup entry.1 = some entry.2 := by decide
  obtain ⟨hblank, hlookup⟩ := hentries _ hmem
  have hsplit : splitWord (word ++ " " ++ rest).toList = (word.toList, Text.trim rest.toList) := by
    simp [splitWord, Text.cut_append_of_not_mem hblank]
  rw [read_eq, hsplit, String.ofList_toList, hlookup]
  rfl

/-- A line that is no command is left to the event on screen. -/
theorem read_of_not_documented {line : String} (hdocumented : ¬ Documented line)
    (hoverlong : ∀ c, ¬ Overlong line c) : Command.read line.toList = .respond line := by
  obtain ⟨word, hword, hline⟩ := splitWord_cases line
  -- a first word that is in the table would make the line a command, with or without more behind
  have hlookup : commandWords.lookup word = none := by
    refine Option.eq_none_iff_forall_ne_some.2 fun c hc => ?_
    have hmem : (word, c) ∈ commandWords := Entries.mem_of_lookup hc
    rcases hline with ⟨rfl, -⟩ | ⟨rest, rfl⟩
    · exact hdocumented (.word hmem)
    · exact hoverlong c ⟨word, rest, hmem, rfl⟩
  have hmore : (splitWord line.toList).2.isEmpty ≠ true → ∃ rest, line = word ++ " " ++ rest := by
    intro hrest
    rcases hline with ⟨-, hnil⟩ | hline
    · exact absurd (hnil ▸ rfl) hrest
    · exact hline
  have hsave : ¬ (word = "save" ∧ (splitWord line.toList).2.isEmpty ≠ true) := by
    rintro ⟨rfl, hrest⟩
    obtain ⟨rest, rfl⟩ := hmore hrest
    exact hdocumented (.save rest)
  have hload : ¬ (word = "load" ∧ (splitWord line.toList).2.isEmpty ≠ true) := by
    rintro ⟨rfl, hrest⟩
    obtain ⟨rest, rfl⟩ := hmore hrest
    exact hdocumented (.load rest)
  rw [read_eq, hword, String.ofList_toList, hlookup, if_neg hsave, if_neg hload,
    String.ofList_toList]
  rfl

/-- A line of one word, which is none of the commands, is left to the event on screen. -/
theorem free_of_blank_not_mem {line : String} (hblank : ' ' ∉ line.toList)
    (hword : ∀ c, (line, c) ∉ commandWords) : ¬ Documented line ∧ ∀ c, ¬ Overlong line c := by
  refine ⟨fun hdocumented => ?_, fun c hoverlong => ?_⟩
  · cases hdocumented with
    | word hmem => exact hword _ hmem
    | save name => simp at hblank
    | load name => simp at hblank
  · obtain ⟨word, rest, -, rfl⟩ := hoverlong
    simp at hblank

/-! ### Numbers -/

/-- A digit or a plus sign. -/
def isCountChar (c : Char) : Bool :=
  c == '+' || Decimal.isDigit c

theorem all_of_word {line : String} {n : Nat} (h : word? line = some n) :
    line.toList.all isCountChar = true := by
  have hnatural : ∀ {text : List Char} {n : Nat}, Decimal.natural? text = some n →
      text.all isCountChar = true := by
    intro text n htext
    unfold Decimal.natural? at htext
    split at htext
    · cases htext
    · rename_i hdigits
      simp only [Bool.or_eq_true, Bool.not_eq_true', not_or, Bool.not_eq_false] at hdigits
      refine List.all_eq_true.2 fun c hc => ?_
      rw [isCountChar, List.all_eq_true.1 hdigits.2 c hc, Bool.or_true]
  have hunsigned : ∃ n, Decimal.unsigned? line.toList = some n := by
    unfold word? number? at h
    split at h
    · rename_i n hn
      exact ⟨n, hn⟩
    · cases h
  obtain ⟨n, hn⟩ := hunsigned
  unfold Decimal.unsigned? at hn
  split at hn
  · rename_i text hline
    rw [hline, List.all_cons, hnatural hn]
    rfl
  · exact hnatural hn

/-- No number is a command. -/
theorem read_of_number {line : String} {n : Nat} (h : word? line = some n) :
    Command.read line.toList = .respond line := by
  have hall := all_of_word h
  have hwords : ∀ entry ∈ commandWords, entry.1.toList.all isCountChar = false := by decide
  have hletters : isCountChar 's' = false ∧ isCountChar 'l' = false ∧ isCountChar ' ' = false := by
    decide
  refine read_of_not_documented (fun hdocumented => ?_) fun c hoverlong => ?_
  · cases hdocumented with
    | word hmem => cases (hwords _ hmem).symm.trans hall
    | save name => simp [hletters] at hall
    | load name => simp [hletters] at hall
  · obtain ⟨word, rest, -, rfl⟩ := hoverlong
    simp [hletters] at hall

/-- Actions are numbered on screen from one. -/
theorem actionLines_append (first : Nat) (names more : List String) :
    actionLines first (names ++ more) =
      actionLines first names ++ actionLines (first + names.length) more := by
  induction names generalizing first with
  | nil => simp [actionLines]
  | cons name names ih =>
    rw [List.cons_append, actionLines, ih, actionLines, List.length_cons, Nat.add_right_comm,
      Nat.add_assoc first]
    simp [String.append_assoc]

/-! ### Answering -/

variable {seed : UInt64} {saves : String} {s : Session}

/-- A line answers the event on screen with its action of a name, on every terminal. -/
def Answers (saves : String) (s : Session) (line name : String) : Prop :=
  ∃ action, s.action? name = some action ∧ s.respond name = s.play action ∧
    ∀ {m : Type → Type} [Monad m] (t : Terminal m),
      readLine t saves s line = report t (s.play action)

/-- A line is carried out as a command, on every terminal. -/
def Obeys (saves : String) (s : Session) (line : String) (c : Command) : Prop :=
  ∀ {m : Type → Type} [Monad m] (t : Terminal m), readLine t saves s line = obey t saves s c

/-- A text has the line of an action with its number. -/
def Numbered (number : Nat) (name text : String) : Prop :=
  ∃ before after, text = before ++ ("  " ++ Nat.repr number ++ ". " ++ name ++ "\n") ++ after

theorem obeys_of_read {line : String} {c : Command} (hblank : Text.trimmed line ≠ "")
    (h : Command.read (Text.trimmed line).toList = c) : Obeys saves s line c := by
  intro m _ t
  have htrim : (Text.trimmed line).toList = Text.trim line.toList := String.toList_ofList
  have hne : ¬ (Text.trim line.toList).isEmpty = true := by
    intro hempty
    refine hblank ?_
    rw [Text.trimmed, List.isEmpty_iff.1 hempty]
  rw [htrim] at h
  unfold readLine
  dsimp only
  rw [if_neg hne, h]

/-- An action that is offered is one of the event on screen. -/
theorem answers_of_choose {line name : String} {names : List String}
    (hoffered : s.offered = .ok names) (hname : name ∈ names)
    (hobeys : Obeys saves s line (.respond (Text.trimmed line)))
    (hchoose : choose names (Text.trimmed line) = .action name) : Answers saves s line name := by
  obtain ⟨action, haction⟩ := exists_action_of_offered hoffered hname
  have hrespond : s.respond name = s.play action := by
    rw [respond_eq, haction]
  refine ⟨action, haction, hrespond, fun t => ?_⟩
  rw [hobeys t, obey, respond, hoffered]
  dsimp only
  rw [hchoose, ← hrespond]

theorem numbered_shownText {story : Story} {description name : String} {names : List String}
    {k : Nat} (h : names[k]? = some name) :
    Numbered (k + 1) name (shownText story (.event description names)) := by
  obtain ⟨hk, hget⟩ := List.getElem?_eq_some_iff.1 h
  have hsplit : names = names.take k ++ name :: names.drop (k + 1) := by
    rw [← hget, List.getElem_cons_drop, List.take_append_drop]
  have hlines : actionLines 1 names = actionLines 1 (names.take k) ++
      actionLines (k + 1) (name :: names.drop (k + 1)) := by
    conv_lhs => rw [hsplit]
    rw [actionLines_append, List.length_take_of_le (Nat.le_of_lt hk), Nat.add_comm 1 k]
  refine ⟨"\n" ++ description ++ "\n\n" ++ actionLines 1 (names.take k),
    actionLines (k + 2) (names.drop (k + 1)) ++ "\n", ?_⟩
  rw [shownText, hlines, actionLines]
  simp only [String.append_assoc]

/-- A player that waits answers with the action whose name is typed, unless the name is blank or a
command word stands in front of it, which is then carried out.  It also answers with the action
whose number is typed, and this is the action that stands on screen with the number. -/
theorem answers_of_waits {d : Desk} {names : List String} (hwaits : Waits seed saves s d)
    (hoffered : s.offered = .ok names) (line : String) :
    (Text.trimmed line ∈ names → Text.trimmed line ≠ "" → word? (Text.trimmed line) = none →
        ¬ Documented (Text.trimmed line) → (∀ c, ¬ Overlong (Text.trimmed line) c) →
        Answers saves s line (Text.trimmed line)) ∧
      (Text.trimmed line = "" → ∀ {m : Type → Type} [Monad m] (t : Terminal m),
        readLine t saves s line = pure (some s)) ∧
      (∀ c, Overlong (Text.trimmed line) c → Obeys saves s line c) ∧
      ∀ k name, word? (Text.trimmed line) = some (k + 1) → names[k]? = some name →
        Answers saves s line name ∧
          ∃ shown description, Played s shown ∧ Prints s.story shown d.printed ∧
            lastEvent shown = some (description, names) ∧
            Numbered (k + 1) name (shownText s.story (.event description names)) := by
  -- the first three parts only read the line; the last one needs what has been shown so far
  refine ⟨fun hmem hblank hnumber hdocumented hoverlong => ?_, fun hblank m _ t => ?_,
    fun c hoverlong => ?_, fun k name hnumber hname => ?_⟩
  · refine answers_of_choose hoffered hmem
      (obeys_of_read hblank (read_of_not_documented hdocumented hoverlong)) ?_
    rw [choose, hnumber]
  · have hnil : Text.trim line.toList = [] := String.ofList_eq_empty_iff.1 hblank
    unfold readLine
    rw [hnil]
    rfl
  · refine obeys_of_read (fun hblank => ?_) (read_of_overlong hoverlong)
    obtain ⟨word, rest, -, hline⟩ := hoverlong
    rw [hblank] at hline
    exact absurd (congrArg String.toList hline) (by simp)
  · have hblank : Text.trimmed line ≠ "" := by
      intro hblank
      have hnone : word? "" = none := by decide
      rw [hblank, hnone] at hnumber
      cases hnumber
    have hmem : name ∈ names := List.mem_of_getElem? hname
    have hchoose : choose names (Text.trimmed line) = .action name := by
      rw [choose, hnumber]
      dsimp only
      rw [hname]
    refine ⟨answers_of_choose hoffered hmem (obeys_of_read hblank (read_of_number hnumber))
      hchoose, ?_⟩
    obtain ⟨shown, hplayed, hprints⟩ := played_of_waits hwaits
    obtain ⟨description, hlast⟩ :=
      lastEvent_played hplayed hoffered (List.ne_nil_of_mem hmem)
    exact ⟨shown, description, hplayed, hprints, hlast, numbered_shownText hname⟩

/-- An event that offers an action whose name begins with a command word. -/
def lamp : Event :=
  { event := "lamp", storyline := "a", description := "The lamp is out.", repeatable := true
    onDisplay := []
    triggers := Triggers.none.set ⟨.atom .null .equal .null, 1.0⟩ .hard
    actions := [("Wait", ⟨[], none⟩), ("help the keeper", ⟨[], none⟩)] }

/-- The story of the lamp. -/
def lights : Story :=
  Config.story ⟨1, "Lights", "A storm", []⟩ ["a"] [lamp]

theorem written_lamp : lamp.Written where
  onDisplay := nofun
  triggers := by
    rintro gate trigger h
    have htrigger : trigger = ⟨.atom .null .equal .null, 1.0⟩ := by
      cases gate with
      | hard => exact (Option.some.inj h).symm
      | soft => cases h
    subst htrigger
    exact ⟨⟨none, .str "null == null", by decide +kernel⟩, by decide +kernel⟩
  actions := List.forall_mem_cons.2 ⟨⟨nofun, nofun⟩, List.forall_mem_singleton.2 ⟨nofun, nofun⟩⟩
  once := by decide

theorem parse?_lights : Story.parse? lights.toJson.text = some lights := by
  have hconfig : (Config.mk 1 "Lights" "A storm" []).Written :=
    ⟨by decide, List.nodup_nil, fun _ h => absurd h List.not_mem_nil⟩
  have hproper : lights.toJson.Proper :=
    hconfig.proper_story (List.forall_mem_singleton.2 written_lamp)
  rw [Story.parse?_text hproper (by decide) (by decide +kernel) (by decide +kernel)]
  decide +kernel

/-- The desk with the bundle of `lights`. -/
def lightsDesk : Desk :=
  .new (.folder [("lights.json", .file (some lights.toJson.text))])

/-- The session that is played of `lights`. -/
def atLamp : Session :=
  (begin lights (Draws.seeded 0)).start.session

theorem waits_atLamp : ∃ d, Waits 0 "saves" atLamp d :=
  waits_of_read "lights.json" lightsDesk (by decide) rfl parse?_lights (by decide +kernel)

/-- The lamp is waited at by name, but asking to help the keeper is a call for help; it takes the
number of the action to help. -/
theorem answers_atLamp :
    ∃ d, Waits 0 "saves" atLamp d ∧ atLamp.offered = .ok ["Wait", "help the keeper"] ∧
      Answers "saves" atLamp " Wait\n" "Wait" ∧ Obeys "saves" atLamp "help the keeper\n" .help ∧
      Answers "saves" atLamp "2\n" "help the keeper" := by
  obtain ⟨d, hwaits⟩ := waits_atLamp
  have hoffered : atLamp.offered = .ok ["Wait", "help the keeper"] := by decide +kernel
  have hanswers := answers_of_waits hwaits hoffered
  have hwait : Text.trimmed " Wait\n" = "Wait" := by decide
  have hhelp : Text.trimmed "help the keeper\n" = "help" ++ " " ++ "the keeper" := by decide
  obtain ⟨hplain, hshort⟩ : ¬ Documented "Wait" ∧ ∀ c, ¬ Overlong "Wait" c :=
    free_of_blank_not_mem (by decide) (by simp [commandWords])
  obtain ⟨hname, -, -⟩ := hanswers " Wait\n"
  obtain ⟨-, -, hcommand, -⟩ := hanswers "help the keeper\n"
  obtain ⟨-, -, -, hnumber⟩ := hanswers "2\n"
  rw [hwait] at hname
  exact ⟨d, hwaits, hoffered, hname (by decide) (by decide) (by decide) hplain hshort,
    hcommand .help ⟨"help", "the keeper", by decide, hhelp⟩,
    (hnumber 1 "help the keeper" (by decide) rfl).1⟩

end Narrative.Tools.Player
