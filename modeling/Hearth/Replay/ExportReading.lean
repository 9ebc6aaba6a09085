import Hearth.Replay.ExportScript

/-!
# What the shell makes of a replay script

The shell reads past the comments, carries out the commands and starts HOL: with the directories of the load path,
and with the phrases up to the first line that is the delimiter.  A text in a comment must not hold a line feed, since
the shell would read what follows it as a command.
-/

namespace Hearth.Replay.Export

open Hearth.Library

namespace Script

variable (script : Script)

/-- The delimiter of the here-document. -/
def delimiter : List Char :=
  ['H', 'O', 'L']

/-- The name under which HOL finds its load path. -/
def loadPathName : List Char :=
  "HOLLIGHT_LOAD_PATH".toList

/-- The phrases as characters. -/
def phraseLines : List (List Char) :=
  script.phrases.map String.toList

/-- No text in a comment holds a line feed. -/
def OneLine : Prop :=
  ∀ text ∈ script.comments, '\n' ∉ text.toList

theorem toList_text :
    script.text.toList =
      Shell.joined ((script.comments.map String.toList).map ('#' :: ·)) ++
        (Shell.joined (script.commands.map String.toList) ++ Shell.joined (script.phraseLines ++ [delimiter])) := by
  have hlines : script.lines.map String.toList =
      ((script.comments.map String.toList).map ('#' :: ·) ++ (script.commands.map String.toList ++
        (script.phraseLines ++ [delimiter]))) ++ [[]] := by
    have hcomment : ∀ text : String, ("#" ++ text).toList = '#' :: text.toList := fun text => String.toList_append
    simp [lines, phraseLines, delimiter, hcomment]
  rw [text, String.toList_intercalate, hlines]
  show ['\n'].intercalate _ = _
  rw [Shell.intercalate_concat_nil, Shell.joined_append, Shell.joined_append]

/-- The state in which HOL is started. -/
def launchState (inherited : Shell.State) : Shell.State :=
  (((({ inherited.assign "HOLDIR".toList (Shell.clean script.holdir.toList) with
    directory := Shell.clean script.profileCwd.toList }).assign loadPathName
      (Shell.clean (":".intercalate script.entries).toList)).exporting loadPathName).assign
        "LINE_EDITOR".toList "env".toList).exporting "LINE_EDITOR".toList

/-- The commands as the shell reads them. -/
theorem clean_commands :
    Shell.clean (Shell.joined (script.commands.map String.toList)) = Shell.joined
      ["set -euo pipefail".toList,
        "HOLDIR".toList ++ '=' :: Shell.clean (Shell.quote script.holdir.toList),
        ['c', 'd', ' '] ++ Shell.clean (Shell.quote script.profileCwd.toList),
        ['e', 'x', 'p', 'o', 'r', 't', ' '] ++ (loadPathName ++
          '=' :: Shell.clean (Shell.quote (":".intercalate script.entries).toList)),
        '#' :: " hol.sh wraps the toplevel in ledit, which garbles piped input; env just execs it.".toList,
        ['e', 'x', 'p', 'o', 'r', 't', ' '] ++ ("LINE_EDITOR".toList ++
          '=' :: Shell.clean (Shell.quote "env".toList)),
        ['e', 'x', 'e', 'c', ' ', '\x22', '$'] ++ ("HOLDIR".toList ++
          '/' :: ("hol.sh".toList ++ ['\x22', ' ', '<', '<', '\x27'] ++ (delimiter ++ ['\x27'])))] := by
  have hquoted : ∀ front text : String, Shell.clean (front ++ quoted text).toList =
      Shell.clean front.toList ++ Shell.clean (Shell.quote text.toList) := by
    intro front text
    rw [String.toList_append, Shell.clean_append, quoted, String.toList_ofList]
  rw [Shell.clean_joined, List.map_map]
  apply congrArg Shell.joined
  simp only [commands, List.map_cons, List.map_nil, Function.comp_apply, hquoted]
  rfl

/-- The shell carries out the commands and starts HOL. -/
theorem run_commands {enters : List Char → Bool} (hcwd : enters (Shell.clean script.profileCwd.toList) = true)
    (count : ℕ) (inherited : Shell.State) (rest : List Char) :
    Shell.run enters (count + 8) inherited
        (Shell.clean (Shell.joined (script.commands.map String.toList)) ++ rest) =
      (Shell.hereDocument delimiter rest).map
        (Shell.Launch.mk (Shell.clean script.holdir.toList ++ '/' :: "hol.sh".toList) (script.launchState inherited)) := by
  have hset : ∀ text state, Shell.run enters (count + 8) state ("set -euo pipefail".toList ++ '\n' :: text) =
      Shell.run enters (count + 7) state text := by
    intro text state
    rfl
  rw [clean_commands]
  simp only [Shell.joined_cons, List.append_assoc, List.cons_append]
  rw [hset]
  refine (Shell.run_assign enters (count + 6) inherited 'H' ['O', 'L', 'D', 'I', 'R'] rfl _ _).trans ?_
  refine (Shell.run_cd enters (count + 5) _ hcwd _).trans ?_
  refine (Shell.run_export enters (count + 4) _ 'H'
    ['O', 'L', 'L', 'I', 'G', 'H', 'T', '_', 'L', 'O', 'A', 'D', '_', 'P', 'A', 'T', 'H'] rfl _ _).trans ?_
  refine (Shell.run_comment enters (count + 2) _ (Shell.not_feed_of_all rfl) _).trans ?_
  refine (Shell.run_export enters (count + 1) _ 'L'
    ['I', 'N', 'E', '_', 'E', 'D', 'I', 'T', 'O', 'R'] rfl _ _).trans ?_
  exact Shell.run_exec enters count _ ['H', 'O', 'L', 'D', 'I', 'R'] '/' ['h', 'o', 'l', '.', 's', 'h'] delimiter
    rfl rfl rfl rfl (by decide) rest

theorem OneLine.comments {script : Script} (h : script.OneLine) :
    ∀ text ∈ (script.comments.map String.toList).map Shell.clean, '\n' ∉ text := by
  intro text hmem
  rw [List.map_map] at hmem
  obtain ⟨comment, hcomment, rfl⟩ := List.mem_map.mp hmem
  intro hfeed
  exact h comment hcomment (List.mem_of_mem_filter hfeed)

/-- The program that the script starts. -/
theorem start_text {enters : List Char → Bool} (hone : script.OneLine)
    (hcwd : enters (Shell.clean script.profileCwd.toList) = true) (inherited : Shell.State) :
    Shell.start enters inherited script.text.toList =
      some ⟨Shell.clean script.holdir.toList ++ '/' :: "hol.sh".toList, script.launchState inherited,
        Shell.joined (((script.phraseLines.map Shell.clean).flatMap (·.splitOn '\n')).takeWhile (· ≠ delimiter))⟩ := by
  have hclean : Shell.clean script.text.toList =
      Shell.joined (((script.comments.map String.toList).map Shell.clean).map ('#' :: ·)) ++
        (Shell.clean (Shell.joined (script.commands.map String.toList)) ++
          Shell.joined (script.phraseLines.map Shell.clean ++ [delimiter])) := by
    have hcomments : Shell.clean (Shell.joined ((script.comments.map String.toList).map ('#' :: ·))) =
        Shell.joined (((script.comments.map String.toList).map Shell.clean).map ('#' :: ·)) := by
      rw [Shell.clean_joined, List.map_map, List.map_map (g := ('#' :: ·))]
      rfl
    have hphrases : Shell.clean (Shell.joined (script.phraseLines ++ [delimiter])) =
        Shell.joined (script.phraseLines.map Shell.clean ++ [delimiter]) := by
      rw [Shell.clean_joined, List.map_append]
      rfl
    rw [toList_text, Shell.clean_append, Shell.clean_append, hcomments, hphrases]
  obtain ⟨count, hcount⟩ : ∃ count, script.text.toList.length =
      count + 8 + 2 * ((script.comments.map String.toList).map Shell.clean).length := by
    have hcomments := Shell.length_joined_comments (script.comments.map String.toList)
    have hcommands := Shell.length_joined (script.commands.map String.toList)
    have hphrases := Shell.length_joined (script.phraseLines ++ [delimiter])
    have hseven : (script.commands.map String.toList).length = 7 := rfl
    rw [List.length_append, List.length_singleton] at hphrases
    rw [toList_text, List.length_append, List.length_append, List.length_map]
    refine ⟨_, (Nat.sub_add_cancel ?_).symm.trans (Nat.add_assoc _ 8 _).symm⟩
    omega
  unfold Shell.start
  rw [hclean, hcount, Shell.run_comments enters (count + 8) inherited hone.comments, run_commands script hcwd,
    Shell.hereDocument_joined (by decide)]
  rfl

/-! ## The phrases -/

/-- A phrase that the shell passes on as it is: without a NUL character, and none of its lines is the delimiter. -/
def Passes (phrase : List Char) : Prop :=
  '\x00' ∉ phrase ∧ delimiter ∉ phrase.splitOn '\n'

instance (phrase : List Char) : Decidable (Passes phrase) :=
  inferInstanceAs (Decidable (_ ∧ _))

/-- A printable ASCII character. -/
def isPrintable (char : Char) : Bool :=
  0x20 ≤ char.toNat && char.toNat ≤ 0x7E

theorem passes_of_printable {phrase : List Char} (h : phrase.all isPrintable = true)
    (hne : phrase.head? ≠ some 'H') : Passes phrase := by
  have hfeed : '\n' ∉ phrase := by
    intro hmem
    cases List.all_eq_true.mp h _ hmem
  refine ⟨?_, ?_⟩
  · intro hmem
    cases List.all_eq_true.mp h _ hmem
  · rw [List.splitOn_eq_singleton hfeed, List.mem_singleton]
    rintro rfl
    exact hne rfl

theorem printable_ocamlEscape (byte : UInt8) : (ocamlEscape byte).toList.all isPrintable = true := by
  have hall : ∀ number : Fin 256, (ocamlEscape (UInt8.ofNat number)).toList.all isPrintable = true := by
    decide +kernel
  have hbyte := hall ⟨byte.toNat, byte.toNat_lt⟩
  rwa [UInt8.ofNat_toNat] at hbyte

/-- The escapes of a literal are printable, whatever its value is. -/
theorem printable_ocamlStringLiteral (value : String) : (ocamlStringLiteral value).toList.all isPrintable = true := by
  have hbody : ∀ bytes : Bytes, (String.join (bytes.map ocamlEscape)).toList.all isPrintable = true := by
    intro bytes
    induction bytes with
    | nil => rfl
    | cons byte bytes ih =>
        rw [List.map_cons, String.join_cons, String.toList_append, List.all_append, printable_ocamlEscape, ih]
        rfl
  rw [ocamlStringLiteral, String.toList_append, String.toList_append, List.all_append, List.all_append, hbody]
  rfl

theorem passes_loadt (path : String) : Passes ("loadt " ++ ocamlStringLiteral path ++ ";;").toList := by
  apply passes_of_printable
  · rw [String.toList_append, String.toList_append, List.all_append, List.all_append, printable_ocamlStringLiteral]
    rfl
  · rw [String.toList_append, String.toList_append]
    nofun

/-- The phrases pass exactly when those of the proved names do. -/
theorem passes_phrases :
    (∀ phrase ∈ script.phraseLines, Passes phrase) ↔ ∀ name ∈ script.proved, Passes (name ++ ";;").toList := by
  constructor
  · intro h name hname
    apply h
    apply List.mem_map_of_mem
    simp only [phrases, List.mem_cons, List.mem_append, List.mem_map]
    exact .inl (.inr ⟨name, hname, rfl⟩)
  · intro h phrase hmem
    obtain ⟨line, hline, rfl⟩ := List.mem_map.mp hmem
    simp only [phrases, List.mem_cons, List.mem_append, List.mem_map, List.not_mem_nil, or_false] at hline
    rcases hline with (((rfl | ⟨base, -, rfl⟩) | rfl | rfl) | ⟨name, hname, rfl⟩) | rfl
    · exact passes_of_printable rfl (by decide)
    · exact passes_loadt base
    · exact passes_loadt script.source
    · exact passes_of_printable rfl (by decide)
    · exact h name hname
    · apply passes_of_printable
      · rw [String.toList_append, List.all_append]
        rfl
      · rw [String.toList_append]
        intro heq
        cases heq

/-- What the shell passes to HOL is the phrases when they all pass, and only then. -/
theorem input_eq_iff :
    Shell.joined (((script.phraseLines.map Shell.clean).flatMap (·.splitOn '\n')).takeWhile (· ≠ delimiter)) =
        Shell.joined script.phraseLines ↔
      ∀ phrase ∈ script.phraseLines, Passes phrase := by
  constructor
  · intro h
    have hall : Shell.joined (script.phraseLines.map Shell.clean) = Shell.clean (Shell.joined script.phraseLines) :=
      (Shell.clean_joined _).symm
    -- the text is part of a script without NUL characters
    have hnul : '\x00' ∉ Shell.joined script.phraseLines := by
      intro hmem
      rw [← h] at hmem
      apply Shell.not_mem_clean (Shell.joined script.phraseLines)
      rw [← hall, ← Shell.joined_splitOn, ← List.takeWhile_append_dropWhile (p := (· ≠ delimiter))
        (l := (script.phraseLines.map Shell.clean).flatMap (·.splitOn '\n')), Shell.joined_append]
      exact List.mem_append_left _ hmem
    rw [← Shell.clean_eq_self hnul, ← hall, Shell.joined_takeWhile_eq_iff] at h
    intro phrase hmem
    have hphrase : '\x00' ∉ phrase := fun hchar =>
      hnul (List.mem_flatMap.mpr ⟨phrase, hmem, List.mem_append_left _ hchar⟩)
    refine ⟨hphrase, fun hdelimiter => h (List.mem_flatMap.mpr ⟨Shell.clean phrase, List.mem_map_of_mem hmem, ?_⟩)⟩
    rwa [Shell.clean_eq_self hphrase]
  · intro h
    have hclean : script.phraseLines.map Shell.clean = script.phraseLines := by
      rw [List.map_congr_left fun phrase hmem => Shell.clean_eq_self (h phrase hmem).1, List.map_id']
    rw [hclean, Shell.joined_takeWhile_eq_iff]
    intro hmem
    obtain ⟨phrase, hphrase, hdelimiter⟩ := List.mem_flatMap.mp hmem
    exact (h phrase hphrase).2 hdelimiter

end Script

end Hearth.Replay.Export
