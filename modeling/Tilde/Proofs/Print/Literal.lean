import Tilde.Proofs.Print.Exact
import Tilde.Proofs.Print.Numeral
import Tilde.Proofs.Sheet.Spells

/-!
# Literals are said in words

A literal is a value made of atoms, lists, tuples, deques and dictionaries. **`recites_print`**:
printing one says its written form, in words with single spaces between them.

* `Saying`: strokes that say a text;
* `Recites`: an action that takes such strokes, or does harm;
* `recites_items`, `recites_tuple`, `recites_entries`: the insides of a container.
-/

namespace Tilde

/-- A value made of atoms, lists, tuples, deques and dictionaries. -/
inductive Value.Literal : Value → Prop
  | nothing : Literal .nothing
  | bool (b : Bool) : Literal (.bool b)
  | int (n : Int) : Literal (.int n)
  | float (x : Binary64) : Literal (.float x)
  | text (s : Text) : Literal (.text s)
  | list {vs : List Value} (hvs : ∀ v ∈ vs, Literal v) : Literal (.list vs)
  | tuple {vs : List Value} (hvs : ∀ v ∈ vs, Literal v) : Literal (.tuple vs)
  | deque {vs : List Value} (hvs : ∀ v ∈ vs, Literal v) : Literal (.deque vs)
  | dict {es : List (Value × Value)} (hkeys : ∀ e ∈ es, Literal e.1)
    (hvalues : ∀ e ∈ es, Literal e.2) : Literal (.dict es)

/-! ## Words -/

theorem word_float (x : Binary64) : Word x.text :=
  .of_solid (Decimal.solid_floatText (by decide) x) (Decimal.floatText_ne_nil (by simp) x)

theorem word_decimal (n : Int) : Word (Radix.decimal n) := by
  refine .of_solid (Radix.solid_numeral n 10) ?_
  simp [Radix.decimal, Radix.numeral, Radix.magnitude, Nat.toDigits_ne_nil]

theorem newline_notMem_escapedCode (c : Char) : '\n' ∉ Text.escapedCode c := by
  have hdigits (width n : Nat) : Solid (Text.hexDigits width n) := by
    induction width generalizing n with
    | zero => exact fun c hc => absurd hc List.not_mem_nil
    | succ width ih =>
      refine (ih _).append fun c hc => ?_
      rw [List.mem_singleton.mp hc]
      exact Radix.isBlank_digitChar _
  unfold Text.escapedCode
  split_ifs <;> simp [(hdigits _ _).newline_notMem]

theorem newline_notMem_escaped {quote : Char} (hquote : quote ≠ '\n') (c : Char) :
    '\n' ∉ Text.escaped quote c := by
  unfold Text.escaped
  split_ifs with h
  · rcases h with rfl | rfl <;> simp [Ne.symm hquote]
  · simp
  · simp
  · simp
  · simpa using Ne.symm ‹¬c = '\n'›
  · exact newline_notMem_escapedCode c

theorem word_quoted (s : Text) : Word (Text.quoted s) := by
  have hquote : ∀ single double, Text.chooseQuote single double ≠ ' ' ∧
      Text.chooseQuote single double ≠ '\n' ∧
      Text.isBlank (Text.chooseQuote single double) = false := by decide
  obtain ⟨hspace, hnewline, hblank⟩ := hquote (s.contains '\'') (s.contains '"')
  unfold Text.quoted
  dsimp only
  generalize Text.chooseQuote _ _ = quote at *
  refine ⟨by simp, ?_, by simpa using hspace, fun c hc => ?_⟩
  swap
  · rw [List.cons_append, ← List.singleton_append, ← List.append_assoc, List.getLast?_concat] at hc
    exact Option.some.inj hc ▸ hblank
  simp only [List.cons_append, List.mem_cons, List.mem_append, List.mem_flatMap, not_or, not_exists,
    not_and]
  exact ⟨hnewline.symm, fun c _ => newline_notMem_escaped hnewline c, hnewline.symm, List.not_mem_nil⟩

/-! ## Strokes that say a text -/

/-- The strokes say a text, in words with single spaces between them. -/
structure Saying (pretty : Bool) (ss : List Stroke) (w : Text) : Prop where
  steps : ∀ φ, ∃ ψ, Ending.Steps pretty φ ss ψ
  text : ∀ a : Account, (ss.foldl Account.stroke a).text = a.text ++ w
  closings : ∀ a : Account, (ss.foldl Account.stroke a).closings = a.closings

namespace Saying

variable {pretty : Bool} {ss ss' : List Stroke} {w w' : Text}

theorem nil (pretty : Bool) : Saying pretty [] [] where
  steps φ := ⟨φ, .nil φ⟩
  text _ := (List.append_nil _).symm
  closings _ := rfl

theorem word (hw : Word w) : Saying pretty [.text w] w where
  steps _ := ⟨_, .cons (.word hw) (.nil _)⟩
  text _ := rfl
  closings _ := rfl

theorem spaced (hw : Word w) : Saying pretty [.text (w ++ [' '])] (w ++ [' ']) where
  steps _ := ⟨_, .cons (.spaced hw) (.nil _)⟩
  text _ := rfl
  closings _ := rfl

theorem append (h : Saying pretty ss w) (h' : Saying pretty ss' w') :
    Saying pretty (ss ++ ss') (w ++ w') where
  steps φ := by
    obtain ⟨ψ, hss⟩ := h.steps φ
    obtain ⟨χ, hss'⟩ := h'.steps ψ
    exact ⟨χ, hss.append hss'⟩
  text a := by rw [List.foldl_append, h'.text, h.text, List.append_assoc]
  closings a := by rw [List.foldl_append, h'.closings, h.closings]

/-- A block around what is said. -/
theorem block {opening closing : Text} (hopening : Word opening) (hclosing : Word closing)
    (h : Saying pretty ss w) :
    Saying pretty (.begin opening [] closing :: (ss ++ [.finish])) (opening ++ w ++ closing) where
  steps φ := by
    obtain ⟨ψ, hss⟩ := h.steps .word
    exact ⟨_, .cons (.begin hopening hclosing) (hss.append (.cons .finish (.nil _)))⟩
  text a := by
    simp [List.foldl_append, Account.stroke, h.text, h.closings]
  closings a := by
    simp [List.foldl_append, Account.stroke, h.closings]

/-- The strokes that may break the line behind a space. -/
def breakable (pretty : Bool) : List Stroke := if pretty then [.newline .fill] else []

theorem steps_breakable (pretty : Bool) :
    ∃ ψ, Ending.Steps pretty .space (breakable pretty) ψ := by
  cases pretty with
  | true => exact ⟨_, .cons (.fill rfl) (.nil _)⟩
  | false => exact ⟨_, .nil _⟩

theorem foldl_breakable (pretty : Bool) (a : Account) :
    (breakable pretty).foldl Account.stroke a = a := by
  cases pretty <;> rfl

/-- What separates two elements. -/
theorem separator (pretty : Bool) :
    Saying pretty (.text [',', ' '] :: breakable pretty) [',', ' '] where
  steps φ := by
    obtain ⟨ψ, hss⟩ := steps_breakable pretty
    exact ⟨ψ, .cons (.spaced (w := [',']) (.of_solid (by decide) (by simp))) hss⟩
  text a := by
    rw [List.foldl_cons, foldl_breakable]
    rfl
  closings a := by
    rw [List.foldl_cons, foldl_breakable]
    rfl

/-- What separates the first element of a tuple from the second, in two parts. -/
theorem gap (pretty : Bool) :
    Saying pretty (.text [','] :: .text [' '] :: breakable pretty) [',', ' '] where
  steps φ := by
    obtain ⟨ψ, hss⟩ := steps_breakable pretty
    exact ⟨ψ, .cons (.word (.of_solid (by decide) (by simp))) (.cons .space hss)⟩
  text a := by
    rw [List.foldl_cons, List.foldl_cons, foldl_breakable]
    simp [Account.stroke]
  closings a := by
    rw [List.foldl_cons, List.foldl_cons, foldl_breakable]
    rfl

end Saying

/-! ## Actions -/

/-- The options by which literals are printed as they are written, and lines may be broken or not. -/
structure Options.Usual (pretty : Bool) (o : Options) : Prop where
  base : o.base = 10
  showRadix : o.showRadix = false
  breaking : o.pretty = pretty
  escape : o.escape = true
  level : o.level = none
  length : o.length = none
  enclosure : o.enclosure = none

namespace Action

/-- The action takes strokes that say a text. -/
def Recites (pretty : Bool) (a : Options → Route → Action Unit) (w : Text) : Prop :=
  ∃ ss n, strokeCalls ≤ n ∧ Saying pretty ss w ∧
    ∀ o route, o.Usual pretty → route.folds = [] → Delivers route n (a o route) ss

namespace Recites

variable {pretty : Bool} {a b : Options → Route → Action Unit} {w w' : Text}

theorem congr (h : Recites pretty a w) (hab : ∀ o route, o.Usual pretty → b o route = a o route) :
    Recites pretty b w := by
  obtain ⟨ss, n, hn, hss, ha⟩ := h
  refine ⟨ss, n, hn, hss, fun o route ho hr => ?_⟩
  rw [hab o route ho]
  exact ha o route ho hr

theorem bind (ha : Recites pretty a w) (hb : Recites pretty b w') :
    Recites pretty (fun o route => a o route >>= fun _ => b o route) (w ++ w') := by
  obtain ⟨ss, n, hn, hss, ha⟩ := ha
  obtain ⟨ss', n', -, hss', hb⟩ := hb
  refine ⟨ss ++ ss', max n n', hn.trans (Nat.le_max_left _ _), hss.append hss',
    fun o route ho hr => ?_⟩
  exact delivers_bind ((ha o route ho hr).mono (Nat.le_max_left _ _))
    ((hb o route ho hr).mono (Nat.le_max_right _ _))

theorem pure (pretty : Bool) : Recites pretty (fun _ _ => Pure.pure ()) [] :=
  ⟨[], strokeCalls, Nat.le_refl _, .nil pretty, fun _ _ _ _ => delivers_pure⟩

theorem write (hw : Word w) : Recites pretty (fun _ route => Action.write route w) w :=
  ⟨_, strokeCalls, Nat.le_refl _, .word hw, fun _ _ _ hr =>
    delivers_write hr (Nat.le_refl _) hw.flat⟩

theorem spaced (hw : Word w) :
    Recites pretty (fun _ route => Action.write route (w ++ [' '])) (w ++ [' ']) :=
  ⟨_, strokeCalls, Nat.le_refl _, .spaced hw, fun _ _ _ hr =>
    delivers_write hr (Nat.le_refl _) (by simpa using hw.flat)⟩

/-- A block around an action. -/
theorem within {opening closing : Text} (hopening : Word opening) (hclosing : Word closing)
    (ha : Recites pretty a w) :
    Recites pretty (fun o route => Action.within route o.level opening [] closing (a o route))
      (opening ++ w ++ closing) := by
  obtain ⟨ss, n, hn, hss, ha⟩ := ha
  refine ⟨_, n, hn, hss.block hopening hclosing, fun o route ho hr => ?_⟩
  dsimp only
  rw [ho.level]
  exact delivers_within hr hn (ha o route ho hr)

theorem descend (ha : Recites pretty a w) (calls : Nat) :
    Recites pretty (fun o route => Action.descend route calls >>= a o) w := by
  obtain ⟨ss, n, hn, hss, ha⟩ := ha
  refine ⟨ss, n + calls, hn.trans (Nat.le_add_right _ _), hss, fun o route ho hr => ?_⟩
  exact delivers_descend hr calls fun route hr => ha o route ho hr

end Recites

variable {pretty : Bool}

theorem delivers_breakable {route : Route} {o : Options} (ho : o.Usual pretty)
    (hr : route.folds = []) {n : Nat} (hn : strokeCalls ≤ n) :
    Delivers route n (if o.pretty then newline route .fill else pure ())
      (Saying.breakable pretty) := by
  rw [ho.breaking, Saying.breakable]
  cases pretty with
  | true => exact delivers_newline hr hn .fill
  | false => exact delivers_pure

theorem recites_separator : Recites pretty (fun o route => printSeparator route o) [',', ' '] := by
  refine ⟨[.text [',', ' ']] ++ Saying.breakable pretty, strokeCalls, Nat.le_refl _,
    .separator pretty, fun o route ho hr => ?_⟩
  exact delivers_bind (delivers_write hr (Nat.le_refl _) (by decide))
    (delivers_breakable ho hr (Nat.le_refl _))

/-- What separates the first element of a tuple from the second. -/
theorem recites_gap :
    Recites pretty (fun o route => do
      write route [',']
      write route [' ']
      if o.pretty then newline route .fill) [',', ' '] := by
  refine ⟨[.text [',']] ++ ([.text [' ']] ++ Saying.breakable pretty), strokeCalls, Nat.le_refl _,
    .gap pretty, fun o route ho hr => ?_⟩
  exact delivers_bind (delivers_write hr (Nat.le_refl _) (by decide))
    (delivers_bind (delivers_write hr (Nat.le_refl _) (by decide))
      (delivers_breakable ho hr (Nat.le_refl _)))

/-- Printing the value recites its written form. -/
def RecitesValue (pretty : Bool) (v : Value) : Prop :=
  Recites pretty (fun o route => print route o v) v.written

variable {vs : List Value} {es : List (Value × Value)}

theorem listed_singleton (s : Text) : Value.listed [s] = s := by
  simp [Value.listed, Text.join]

theorem listed_cons (s t : Text) (ss : List Text) :
    Value.listed (s :: t :: ss) = s ++ ([',', ' '] ++ Value.listed (t :: ss)) := by
  simp [Value.listed, Text.join]

theorem recites_items (hvs : ∀ v ∈ vs, RecitesValue pretty v) (i : Nat) :
    Recites pretty (fun o route => printItems route o i vs)
      (Value.listed (Value.writtenItems vs)) := by
  induction vs generalizing i with
  | nil =>
    refine (Recites.pure pretty).congr fun o route _ => ?_
    rw [printItems]
  | cons v vs ih =>
    obtain ⟨hv, hvs⟩ := List.forall_mem_cons.mp hvs
    cases vs with
    | nil =>
      rw [Value.writtenItems, Value.writtenItems, listed_singleton, ← List.append_nil v.written]
      refine (hv.bind (.pure pretty)).congr fun o route ho => ?_
      rw [printItems]
      simp [reachesLength, ho.length]
    | cons v' vs =>
      rw [Value.writtenItems, Value.writtenItems, listed_cons]
      refine (hv.bind (recites_separator.bind (ih hvs (i + 1)))).congr fun o route ho => ?_
      rw [printItems]
      simp [reachesLength, ho.length]

theorem recites_tuple (hvs : ∀ v ∈ vs, RecitesValue pretty v) :
    Recites pretty (fun o route => within route o.level ['('] [] [')'] (printTuple route o vs))
      (Value.tuple vs).written := by
  have hopening : Word ['('] := .of_solid (by decide) (by simp)
  have hclosing : Word [')'] := .of_solid (by decide) (by simp)
  have hcomma : Recites pretty (fun _ route => write route [',']) [','] :=
    .write (.of_solid (by decide) (by simp))
  -- a tuple of one element has its comma even though nothing follows
  cases vs with
  | nil =>
    have hwritten : (Value.tuple []).written = ['('] ++ [] ++ [')'] := rfl
    rw [hwritten]
    refine ((Recites.pure pretty).within hopening hclosing).congr fun o route _ => ?_
    rw [printTuple]
  | cons v vs =>
    obtain ⟨hv, hvs⟩ := List.forall_mem_cons.mp hvs
    cases vs with
    | nil =>
      have hwritten : (Value.tuple [v]).written = ['('] ++ (v.written ++ [',']) ++ [')'] := by
        show '(' :: v.written ++ [',', ')'] = _
        simp
      rw [hwritten]
      refine ((hv.bind hcomma).within hopening hclosing).congr fun o route ho => ?_
      rw [printTuple]
      simp [reachesLength, ho.length]
    | cons v' vs =>
      have hwritten : (Value.tuple (v :: v' :: vs)).written =
          ['('] ++ Value.listed (v.written :: Value.writtenItems (v' :: vs)) ++ [')'] := rfl
      rw [hwritten, Value.writtenItems, listed_cons, ← Value.writtenItems]
      refine ((hv.bind (recites_gap.bind (recites_items hvs 1))).within hopening hclosing).congr
        fun o route ho => ?_
      rw [printTuple, ho.breaking]
      cases pretty <;> simp [reachesLength, ho.length]

theorem recites_entries (hkeys : ∀ e ∈ es, RecitesValue pretty e.1)
    (hvalues : ∀ e ∈ es, RecitesValue pretty e.2) (i : Nat) :
    Recites pretty (fun o route => printEntries route o i es)
      (Value.listed (Value.writtenEntries es)) := by
  have hcolon : Recites pretty (fun _ route => write route [':', ' ']) [':', ' '] :=
    .spaced (w := [':']) (.of_solid (by decide) (by simp))
  induction es generalizing i with
  | nil =>
    refine (Recites.pure pretty).congr fun o route _ => ?_
    rw [printEntries]
  | cons e es ih =>
    obtain ⟨hkey, hkeys⟩ := List.forall_mem_cons.mp hkeys
    obtain ⟨hvalue, hvalues⟩ := List.forall_mem_cons.mp hvalues
    cases es with
    | nil =>
      have hwritten : Value.listed (Value.writtenEntries [e]) =
          e.1.written ++ ([':', ' '] ++ (e.2.written ++ [])) := by
        rw [List.append_nil]
        exact listed_singleton _
      rw [hwritten]
      refine (hkey.bind (hcolon.bind (hvalue.bind (.pure pretty)))).congr fun o route ho => ?_
      rw [printEntries]
      simp [reachesLength, ho.length]
    | cons e' es =>
      have hwritten : Value.listed (Value.writtenEntries (e :: e' :: es)) =
          e.1.written ++ ([':', ' '] ++ (e.2.written ++ ([',', ' '] ++
            Value.listed (Value.writtenEntries (e' :: es))))) := by
        refine (listed_cons _ _ _).trans ?_
        rw [List.append_assoc]
        rfl
      rw [hwritten]
      refine (hkey.bind (hcolon.bind (hvalue.bind (recites_separator.bind
        (ih hkeys hvalues (i + 1)))))).congr fun o route ho => ?_
      rw [printEntries]
      simp [reachesLength, ho.length]

theorem printCalls_eq {o : Options} (ho : o.Usual pretty) {v : Value} (hv : v.Literal) :
    printCalls o v = 2 := by
  cases hv <;> simp [printCalls, ho.enclosure]

theorem recites_atom {v : Value} (hv : v.Literal) (hw : Word v.written)
    (hprint : ∀ o route, o.Usual pretty → print route o v =
      descend route (printCalls o v) >>= fun route => write route v.written) :
    RecitesValue pretty v := by
  refine ((Recites.write hw).descend 2).congr fun o route ho => ?_
  rw [hprint o route ho, printCalls_eq ho hv]

/-- **Printing a literal** recites its written form. -/
theorem recites_print {v : Value} (hv : v.Literal) : RecitesValue pretty v := by
  induction hv with
  | nothing =>
    refine recites_atom .nothing (.of_solid (by decide) (by decide)) fun o route ho => ?_
    rw [print]
    simp [writtenText, ho.escape]
  | bool b =>
    refine recites_atom (.bool b) ?_ fun o route ho => ?_
    · cases b <;> exact .of_solid (by decide) (by decide)
    · rw [print]
      simp [writtenText, ho.escape]
  | int n =>
    refine recites_atom (.int n) (word_decimal n) fun o route ho => ?_
    rw [print]
    simp only [integerText_eq ho.base ho.showRadix]
    rfl
  | float x =>
    refine recites_atom (.float x) (word_float x) fun o route ho => ?_
    rw [print]
    simp [writtenText, ho.escape]
  | text s =>
    refine recites_atom (.text s) (word_quoted s) fun o route ho => ?_
    rw [print]
    simp [writtenText, ho.escape, ho.enclosure]
  | list hvs ih =>
    have hopening : Word ['['] := .of_solid (by decide) (by simp)
    have hclosing : Word [']'] := .of_solid (by decide) (by simp)
    refine (((recites_items ih 0).within hopening hclosing).descend 2).congr fun o route ho => ?_
    rw [print, printCalls_eq ho (.list hvs)]
  | tuple hvs ih =>
    refine ((recites_tuple ih).descend 2).congr fun o route ho => ?_
    rw [print, printCalls_eq ho (.tuple hvs)]
  | deque hvs ih =>
    have hopening : Word "deque([".toList := .of_solid (by decide) (by decide)
    have hclosing : Word [']', ')'] := .of_solid (by decide) (by decide)
    refine (((recites_items ih 0).within hopening hclosing).descend 2).congr fun o route ho => ?_
    rw [print, printCalls_eq ho (.deque hvs)]
  | dict hkeys hvalues ihkeys ihvalues =>
    have hopening : Word ['\x7b'] := .of_solid (by decide) (by simp)
    have hclosing : Word ['\x7d'] := .of_solid (by decide) (by simp)
    refine (((recites_entries ihkeys ihvalues 0).within hopening hclosing).descend 2).congr
      fun o route ho => ?_
    rw [print, printCalls_eq ho (.dict hkeys hvalues)]

end Action

end Tilde
