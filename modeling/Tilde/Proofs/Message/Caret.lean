import Tilde.Proofs.Message.Naming
import Tilde.Proofs.Message.Wording
import Tilde.Proofs.Print.Numeral

/-!
# Complaints are shown

A complaint about a control string can always be shown: what it says stands on the first line, the
control string in quotes on the second, and on the third a caret under the character that it is
about.

* `render_located`: rendering a message about a place in a control string;
* **`Fault.message_malformed`**: the message of a control string that is refused.
-/

namespace Tilde

open Tilde.Action (Puts runWithin)

theorem compile_located : compile "~?~%~V@T\"~A\"~%~V@T^".toList = .ok
    [.atom .recursive ⟨[], [], false, false, 0, 2⟩, .text ['\n'],
      .atom .tabulate ⟨[.next], [5], false, true, 4, 8⟩, .text ['"'],
      .atom .aesthetic ⟨[], [], false, false, 9, 11⟩, .text ['"'], .text ['\n'],
      .atom .tabulate ⟨[.next], [15], false, true, 14, 18⟩, .text ['^']] := by
  with_unfolding_all rfl

/-- **A message about a place in a control string is three lines**, if what it says is one. -/
theorem Report.render_located {report : Report} {words : Text} (h : report.Says words)
    (control : Text) {column : Nat} (hmemory : column < Text.memoryLimit) :
    (locatedReport (.text control) (.int column) report).render =
      .ok (Text.join ['\n'] [words, "  \"".toList ++ control ++ ['"'],
        List.replicate column ' ' ++ ['^']]) := by
  obtain ⟨nodes, hnodes, hsays⟩ := h
  let start : Cursor := .ofList [report.message, .tuple report.arguments, .int controlIndent,
    .text control, .int column]
  have hroute : Route.Straight (13 + 2) { room := standardRoom } := ⟨rfl, by decide⟩
  have hinside := hroute.descend
  have hflat := hinside.mono (show 9 ≤ 13 by decide)
  obtain ⟨outcome, hwords⟩ : ∃ outcome, Puts {} (runWithin Limits.standard.passes (987 + 2)
      { room := standardRoom - 2 } nodes (.ofList report.arguments)) outcome words :=
    hsays rfl hinside
  have hmessage : start.next = .ok (report.message, start.moved (.int 1)) := rfl
  have harguments : (start.moved (.int 1)).next =
      .ok (.tuple report.arguments, start.moved (.int 2)) := rfl
  have hindent : Head.settle ⟨[.next], [5], false, true, 4, 8⟩ Atom.tabulate.defaults
      (start.moved (.int 2)) = .ok ([.int controlIndent, .int 1], start.moved (.int 3)) := rfl
  have hcontrol : (start.moved (.int 3)).next = .ok (.text control, start.moved (.int 4)) := rfl
  have hcaret : Head.settle ⟨[.next], [15], false, true, 14, 18⟩ Atom.tabulate.defaults
      (start.moved (.int 4)) = .ok ([.int column, .int 1], start.moved (.int 5)) := rfl
  -- One piece for every directive and every literal text of the control string.
  have hpieces : Text.join ['\n'] [words, "  \"".toList ++ control ++ ['"'],
      List.replicate column ' ' ++ ['^']] =
      words ++ (['\n'] ++ (List.replicate controlIndent ' ' ++ (['"'] ++ (control ++ (['"'] ++
        (['\n'] ++ (List.replicate column ' ' ++ ['^']))))))) := by
    simp [Text.join, controlIndent]
  rw [hpieces]
  refine Formatter.format_of_puts compile_located rfl
    ⟨(start.moved (.int 5), none), .level (hroute.mono (by decide)).room ?_⟩
  refine (Puts.recursive rfl hmessage hnodes harguments rfl hwords).cons
    ((Puts.text hflat _ _).cons ?_)
  refine (Puts.tabulate hflat rfl rfl (by decide) hindent).cons ((Puts.text hflat _ _).cons ?_)
  refine (Puts.aesthetic (hinside.mono (by decide)) rfl rfl hcontrol).cons
    ((Puts.text hflat _ _).cons ?_)
  refine (Puts.text hflat _ _).cons ((Puts.tabulate hflat rfl rfl hmemory hcaret).cons ?_)
  exact .last (.text hflat _ _)

/-! ## Lines -/

theorem flat_of_parameter (command : Command) :
    ∀ name ∈ command.parameters.map Prod.fst, '\n' ∉ name.toList := by
  cases command with
  | atom kind => cases kind <;> decide
  | continuation => decide
  | opening bracket => cases bracket <;> decide
  | closing bracket => cases bracket <;> decide
  | separator => decide

/-- What a complaint says is a single line. -/
theorem Complaint.flat_words {c : Complaint} (h : c.NamesParameter) : '\n' ∉ c.words := by
  cases c with
  | tooManyParameters limit =>
    have hdigits : '\n' ∉ Radix.decimal limit := (Radix.solid_numeral limit 10).newline_notMem
    simp only [words]
    split_ifs <;> simp [hdigits]
  | wrongParameter name wantsInteger =>
    obtain ⟨command, hname⟩ := h
    have hflat := flat_of_parameter command name hname
    cases wantsInteger <;> simp [words, hflat]
  | _ => decide +kernel

/-! ## Formatters -/

/-- A complaint that a formatter makes is about its control string, and reading made it. -/
theorem parse_of_malformed {control c : Text} {offset : Nat} {complaint : Complaint}
    (h : Formatter.ofSource (.text control) = .error (.malformed c offset complaint)) :
    c = control ∧ parse control = .error (.located offset complaint) := by
  rw [ofSource_of_compile rfl, compile] at h
  cases hparse : parse control with
  | ok nodes =>
    rw [hparse] at h
    cases h
  | error e =>
    rw [hparse] at h
    cases e with
    | located offset' complaint' =>
      cases h
      exact ⟨rfl, rfl⟩
    | excessive excess => cases excess <;> cases h
    | unreadableInteger => cases h
    | tooDeep => cases h

/-- **The message about a control string that is refused has three lines**: what is wrong, the
control string in quotes, and a caret under the character at the offset. There has to be memory for
the third line, which is hardly longer than the control string. -/
theorem Fault.message_malformed {control c : Text} {offset : Nat} {complaint : Complaint}
    (hcontrol : '\n' ∉ control)
    (h : Formatter.ofSource (.text control) = .error (.malformed c offset complaint))
    (hmemory : offset + 3 < Text.memoryLimit) :
    c = control ∧ offset < control.length ∧
      ("  \"".toList ++ control ++ ['"'])[offset + 3]? = control[offset]? ∧
      ∃ text, (malformed c offset complaint).message = some (.ok text) ∧
        text.splitOn '\n' = [complaint.words, "  \"".toList ++ control ++ ['"'],
          List.replicate (offset + 3) ' ' ++ ['^']] := by
  obtain ⟨rfl, hparse⟩ := parse_of_malformed h
  have hlt : offset < c.length := by
    have hfounded := founded_parse hparse
    cases hfounded
    assumption
  have hnames : complaint.NamesParameter := (hparse ▸ names_parse c :)
  have hlines : ∀ line ∈ [complaint.words, "  \"".toList ++ c ++ ['"'],
      List.replicate (offset + 3) ' ' ++ ['^']], '\n' ∉ line := by
    simp [hcontrol, Complaint.flat_words hnames, List.mem_replicate]
  have hrender : (complaint.report c offset).render = .ok (Text.join ['\n'] [complaint.words,
      "  \"".toList ++ c ++ ['"'], List.replicate (offset + 3) ' ' ++ ['^']]) :=
    Report.render_located complaint.says_words c hmemory
  refine ⟨rfl, hlt, ?_, _, congrArg some hrender, ?_⟩
  · rw [List.getElem?_append_left (by simp; omega)]
    rfl
  · exact List.splitOn_intercalate '\n' hlines (List.cons_ne_nil _ _)

/-- A character where a number is wanted. -/
theorem Fault.message_malformed_total :
    let control := "Total: ~'xD".toList
    let complaint := Complaint.wrongParameter "mincol" true
    '\n' ∉ control ∧
      Formatter.ofSource (.text control) = .error (.malformed control 8 complaint) ∧
      8 + 3 < Text.memoryLimit ∧
      ∃ text, (Fault.malformed control 8 complaint).message = some (.ok text) ∧
        text.splitOn '\n' = ["mincol parameter must be an integer".toList,
          "  \"Total: ~'xD\"".toList, "           ^".toList] := by
  intro control complaint
  have hflat : '\n' ∉ control := by decide
  have hsource : Formatter.ofSource (.text control) = .error (.malformed control 8 complaint) := by
    with_unfolding_all rfl
  have hmemory : 8 + 3 < Text.memoryLimit := by decide
  obtain ⟨-, -, -, text, hmessage, hlines⟩ := message_malformed hflat hsource hmemory
  exact ⟨hflat, hsource, hmemory, text, hmessage, hlines⟩

end Tilde
