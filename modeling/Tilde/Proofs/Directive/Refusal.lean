import Tilde.Format.Formatter
import Tilde.Proofs.Directive.Build

/-!
# Why control strings are refused

A control string is compiled, or refused with a complaint about one of its characters. Besides,
there are limits: a number may have digits that do not make a numeral, copies of a character may be
too many, and groups may be nested too deeply.

* `Text.HasUnreadableNumber`, `Text.HasExcessiveCount`, `Text.openings`: what goes beyond the
  limits;
* `Malformed.Founded`: a refusal that the control string gives reason for;
* **`ofSource_text`**: nothing else happens to a control string.
-/

namespace Tilde

open Text (since)

variable {w s : Text} {i j : Nat} {x : Char} {r r' : Remainder} {command : Command} {head : Head}
  {lexeme : Lexeme} {e : Malformed} {b : Builder}

/-- Characters that look like digits stand in a row which is too long for a numeral, or not all of
them count as digits. -/
def Text.HasUnreadableNumber (w : Text) : Prop :=
  ∃ digits, digits <:+: w ∧ (∀ x ∈ digits, looksLikeDigit x = true) ∧
    (greatestDigitCount < digits.length ∨ ∃ x ∈ digits, digitValue? x = none)

/-- A line feed, form feed or tilde is asked for more often than there is memory for. -/
def Text.HasExcessiveCount (w : Text) : Prop :=
  ∃ digits comma x n, digits ++ comma ++ [x] <:+: w ∧ readNatural? digits = some n ∧
    memoryLimit ≤ n ∧ (comma = [] ∨ comma = [',']) ∧ x ∈ ['%', '|', '~']

/-- How many opening brackets there are. -/
def Text.openings (w : Text) : Nat := w.countP (· ∈ ['[', '{', '(', '<'])

/-- The control string gives reason for the refusal. -/
inductive Malformed.Founded (w : Text) : Malformed → Prop
  | located {offset : Nat} {complaint : Complaint} (lt : offset < w.length) :
      Founded w (.located offset complaint)
  | unreadable (h : w.HasUnreadableNumber) : Founded w .unreadableInteger
  | excessive {e : Excess} (h : w.HasExcessiveCount) : Founded w (.excessive e)
  | tooDeep (h : greatestDepth < w.openings) : Founded w .tooDeep

open Malformed (Founded)

/-! ## Numbers -/

theorem exists_of_readDigits (h : Text.readDigits? s = none) :
    ∃ x ∈ s, Text.digitValue? x = none := by
  by_contra hall
  have readable (n : Nat) : ∃ m, s.foldl (fun acc y => do
      return 10 * (← acc) + (← Text.digitValue? y)) (some n) = some m := by
    clear h
    induction s generalizing n with
    | nil => exact ⟨n, rfl⟩
    | cons x s ih =>
      obtain ⟨d, hd⟩ := Option.ne_none_iff_exists'.mp fun hx => hall ⟨x, by simp, hx⟩
      rw [List.foldl_cons, hd]
      exact ih (fun ⟨y, hy, hnone⟩ => hall ⟨y, List.mem_cons_of_mem x hy, hnone⟩) _
  obtain ⟨m, hm⟩ := readable 0
  rw [Text.readDigits?, hm] at h
  exact Option.some_ne_none m h

theorem looksLikeDigit_of_isDigit (h : x.isDigit = true) : Text.looksLikeDigit x = true := by
  have hx : 48 ≤ x.toNat ∧ x.toNat < 58 := by
    obtain ⟨h₁, h₂⟩ := by simpa [Char.isDigit, UInt32.le_iff_toNat_le] using h
    exact ⟨h₁, Nat.lt_succ_of_le h₂⟩
  simp [Text.looksLikeDigit, Text.digitValue?, Text.zeroCodes, hx]

theorem unreadable_of_infix {digits : Text} (hslice : digits <:+: w)
    (hdigits : ∀ x ∈ digits, Text.looksLikeDigit x = true) (h : Text.readNatural? digits = none) :
    Founded w .unreadableInteger := by
  refine .unreadable ⟨digits, hslice, hdigits, ?_⟩
  unfold Text.readNatural? at h
  split_ifs at h with hlength
  · exact .inl hlength
  · exact .inr (exists_of_readDigits h)

theorem founded_readNumber {t : Text} (hs : w.drop i = x :: s ++ t)
    (hdigits : ∀ y ∈ s, Text.looksLikeDigit y = true) (h : readNumber i x s = .error e) :
    Founded w e := by
  have hslice : x :: s <:+: w :=
    (hs ▸ (List.prefix_append (x :: s) t).isInfix).trans (List.drop_suffix i w).isInfix
  have hlt : i < w.length := Text.lt_length_of_drop (hs.trans rfl)
  unfold readNumber at h
  split_ifs at h with hx hempty
  · split at h
    · simp at h
    · rename_i hn
      obtain rfl := Except.error.inj h
      refine unreadable_of_infix hslice (fun y hy => ?_) hn
      rcases List.mem_cons.mp hy with rfl | hy
      · exact looksLikeDigit_of_isDigit hx
      · exact hdigits y hy
  · obtain rfl := Except.error.inj h
    exact .located hlt
  all_goals
    split at h
    · simp at h
    · rename_i hn
      obtain rfl := Except.error.inj h
      exact unreadable_of_infix ((List.suffix_cons x s).isInfix.trans hslice) hdigits hn

/-! ## Parameters and modifiers -/

theorem founded_readParameter (h : readParameter? (w.since i) = .error e) : Founded w e := by
  unfold readParameter? at h
  split at h
  · simp at h
  rename_i x s hs
  have hlt : i < w.length := Text.lt_length_of_drop hs
  split_ifs at h
  · refine founded_readNumber (t := s.dropWhile Text.looksLikeDigit) ?_
      (fun y hy => of_mem_takeWhile hy) (eq_error_of_map h)
    rw [List.cons_append, List.takeWhile_append_dropWhile]
    exact hs
  · split at h
    · obtain rfl := Except.error.inj h
      exact .located hlt
    · simp at h

theorem founded_scanParameters (hi : i ≤ w.length) (h : scanParameters (w.since i) = .error e) :
    Founded w e := by
  generalize hr : w.since i = r at h
  fun_induction scanParameters r generalizing i with
  | case1 r e' hread =>
    obtain rfl := Except.error.inj h
    subst hr
    exact founded_readParameter hread
  | case2 => simp at h
  | case3 r p r₁ hread e' hrest ih =>
    obtain rfl := Except.error.inj h
    subst hr
    obtain ⟨word, comma, hleaves, -⟩ := leaves_readParameter hread
    obtain ⟨hr₁, -, hle⟩ := hleaves.since hi
    exact ih hle hr₁.symm hrest
  | case4 => simp at h

theorem founded_scanModifiers {colon atSign : Bool} (hs : w.drop i = s)
    (h : scanModifiers colon atSign s i = .error e) : Founded w e := by
  fun_induction scanModifiers colon atSign s i with
  | case1 =>
    obtain rfl := Except.error.inj h
    exact .located (Text.lt_length_of_drop hs)
  | case2 colon atSign s i hcolon ih => exact ih (Text.drop_succ_of_drop hs) h
  | case3 =>
    obtain rfl := Except.error.inj h
    exact .located (Text.lt_length_of_drop hs)
  | case4 colon atSign s i hatSign ih => exact ih (Text.drop_succ_of_drop hs) h
  | case5 => simp at h

/-! ## Directives -/

theorem founded_checkKinds {wanted : List (String × ParameterKind)}
    {given : List (Parameter × Nat)} (hgiven : ∀ p ∈ given, p.2 < w.length)
    (h : checkKinds wanted given = .error e) : Founded w e := by
  fun_induction checkKinds wanted given with
  | case1 _ _ _ _ _ _ _ ih => exact ih (fun p hp => hgiven p (List.mem_cons_of_mem _ hp)) h
  | case2 =>
    obtain rfl := Except.error.inj h
    exact .located (hgiven _ List.mem_cons_self)
  | case3 => simp at h

theorem founded_checkHead (hstart : head.start < w.length)
    (hoffsets : ∀ p ∈ head.parameters.zip head.offsets, p.2 < w.length)
    (h : checkHead command head = .error e) : Founded w e := by
  unfold checkHead at h
  split at h
  · obtain rfl := Except.error.inj h
    exact .located hstart
  · unfold checkParameters at h
    split_ifs at h
    · obtain rfl := Except.error.inj h
      exact .located hstart
    · exact founded_checkKinds hoffsets h

theorem repeated_char {y : Char} (hnamed : Command.ofChar? x = some command)
    (h : command.repeated? = some y) : x ∈ ['%', '|', '~'] := by
  have hx : x.toLower ∈ ['%', '|', '~'] := by
    unfold Command.ofChar? at hnamed
    split at hnamed <;> cases hnamed <;> simp_all [Command.repeated?]
  simp only [List.mem_cons, List.not_mem_nil, or_false] at hx ⊢
  exact hx.imp (eq_of_toLower (by decide))
    (.imp (eq_of_toLower (by decide)) (eq_of_toLower (by decide)))

theorem excess_of_asCount {n : Int} {e : Excess} (h : Text.asCount n = .error e) :
    Text.memoryLimit ≤ n.natAbs := by
  by_contra hlt
  have hlimit : Text.memoryLimit = 0x80000000 := rfl
  have hindex : Text.indexLimit = 0x8000000000000000 := rfl
  have hn : Text.asIndex n = .ok n := if_pos (by omega)
  have hlength : Text.checkLength n.toNat = .ok () := by
    rw [Text.checkLength, if_neg (by omega), if_neg (by omega)]
  simp [Text.asCount, hn, hlength, bind, Except.bind, pure, Except.pure] at h

/-- A count that cannot be met stands there with its digits and the character of the directive. -/
theorem Heads.excessive {n : Int} {y : Char} (h : Heads i (w.since (i + 1)) command head r')
    (hrepeated : command.repeated? = some y) (hn : head.parameters = [.number n])
    (hplain : ¬(head.colon = true ∨ head.atSign = true))
    (hlimit : Text.memoryLimit ≤ n.natAbs) : w.HasExcessiveCount := by
  obtain ⟨hgiven, hseen, htext, hnamed⟩ := h
  rename_i given r₁ r₂ colon atSign x s
  obtain ⟨⟨p, offset⟩, rfl, rfl⟩ := List.map_eq_singleton_iff.mp hn
  obtain ⟨hcolon, hatSign⟩ := by simpa using hplain
  obtain ⟨word, comma, hleaves, hcomma, sign, digits, rfl, hdigits⟩ :=
    leaves_scanParameters_number hgiven
  obtain ⟨t, hleaves', -, -, hnil⟩ := leaves_scanModifiers hseen
  obtain rfl := hnil hcolon hatSign
  have htext₁ : r₁.text = x :: s := hleaves'.text.trans htext
  refine ⟨digits, comma, x, n.natAbs, ?_, hdigits, hlimit, hcomma, repeated_char hnamed hrepeated⟩
  have hdrop : w.drop (i + 1) = sign ++ (digits ++ comma ++ [x]) ++ s := by
    rw [show w.drop (i + 1) = _ from hleaves.text, htext₁]
    simp
  exact (hdrop ▸ List.infix_append sign (digits ++ comma ++ [x]) s).trans
    (List.drop_suffix (i + 1) w).isInfix

theorem Heads.offsets (h : Heads i (w.since (i + 1)) command head r') (hi : i < w.length) :
    ∀ p ∈ head.parameters.zip head.offsets, p.2 < w.length := by
  obtain ⟨hgiven, hseen, htext, hnamed⟩ := h
  rename_i given r₁ r₂ colon atSign x s
  obtain ⟨t, hleaves, hoffsets⟩ := leaves_scanParameters hgiven
  obtain ⟨hr₁, -, hle⟩ := hleaves.since hi
  intro p hp
  have hmem : p ∈ given := by simpa [List.zip_map'] using hp
  have hlt := (hoffsets p hmem).2
  rw [hr₁] at hlt
  exact hlt.trans_le hle

theorem founded_ofDirective (h : Heads i (w.since (i + 1)) command head r')
    (hi : i < w.length) (herror : Lexeme.ofDirective command head = .error e) :
    Founded w e := by
  have hstart : head.start < w.length := by
    cases h
    exact hi
  have checked (command : Command) (herror : (checkHead command head).map
      (fun _ => Lexeme.directive command head) = .error e) : Founded w e :=
    founded_checkHead hstart (h.offsets hi) (eq_error_of_map herror)
  unfold Lexeme.ofDirective at herror
  split at herror
  · split_ifs at herror <;> exact Except.error.inj herror ▸ .located hstart
  · rename_i y _ hrepeated
    split_ifs at herror with hplain
    · exact Except.error.inj herror ▸ .located hstart
    split at herror
    · simp at herror
    · rename_i n hn
      split at herror
      · simp at herror
      · rename_i e' hcount
        obtain rfl := Except.error.inj herror
        exact .excessive (h.excessive hrepeated hn hplain (excess_of_asCount hcount))
    · exact checked _ herror
  · exact checked _ herror

theorem founded_readDirective (hi : i < w.length)
    (h : readDirective i (w.since (i + 1)) = .error e) : Founded w e := by
  by_cases hheads : ∃ command head r', Heads i (w.since (i + 1)) command head r'
  · obtain ⟨command, head, r', hheads⟩ := hheads
    rw [readDirective_eq hheads] at h
    exact founded_ofDirective hheads hi (eq_error_of_map h)
  unfold readDirective at h
  cases hgiven : scanParameters (w.since (i + 1)) with
  | error e' =>
    obtain rfl : e' = e := by simpa [hgiven, bind, Except.bind] using h
    exact founded_scanParameters hi hgiven
  | ok given =>
    obtain ⟨s, hleaves, -⟩ := leaves_scanParameters hgiven
    obtain ⟨hr₁, -, -⟩ := hleaves.since hi
    cases hseen : scanModifiers false false given.2.text given.2.offset with
    | error e' =>
      obtain rfl : e' = e := by simpa [hgiven, hseen, bind, Except.bind] using h
      rw [hr₁] at hseen
      exact founded_scanModifiers rfl hseen
    | ok seen =>
      simp only [hgiven, hseen, bind, Except.bind] at h
      split at h
      · exact Except.error.inj h ▸ .located hi
      rename_i x s htext
      split at h
      · exact Except.error.inj h ▸ .located hi
      · rename_i command hnamed
        exact absurd ⟨command, _, _, .intro hgiven hseen htext hnamed⟩ hheads

theorem founded_readLexeme (h : readLexeme? (w.since i) = .error e) : Founded w e := by
  unfold readLexeme? at h
  split at h
  · simp at h
  · rename_i s hs
    rw [← Text.drop_succ_of_drop hs] at h
    exact founded_readDirective (Text.lt_length_of_drop hs) (eq_error_of_map h)
  · simp at h

/-! ## Groups -/

theorem Text.openings_take_le (w : Text) (hij : i ≤ j) :
    Text.openings (w.take i) ≤ Text.openings (w.take j) :=
  ((List.take_prefix_take_left hij).sublist).countP_le

theorem opening_char {bracket : Bracket} (hnamed : Command.ofChar? x = some (.opening bracket)) :
    x ∈ ['[', '{', '(', '<'] := by
  have hx : x.toLower ∈ ['[', '{', '(', '<'] := by
    unfold Command.ofChar? at hnamed
    split at hnamed <;> simp_all
  simp only [List.mem_cons, List.not_mem_nil, or_false] at hx ⊢
  exact hx.imp (eq_of_toLower (by decide)) (.imp (eq_of_toLower (by decide))
    (.imp (eq_of_toLower (by decide)) (eq_of_toLower (by decide))))

theorem openings_of_opening {bracket : Bracket} (hread : head.ReadFrom w (.opening bracket)) :
    Text.openings (w.take head.start) + 1 ≤ Text.openings (w.take head.stop) := by
  obtain ⟨-, hlt, -, x, hx, hnamed⟩ := of_directiveAt hread.place
  obtain ⟨k, hk⟩ : ∃ k, head.stop = k + 1 := ⟨head.stop - 1, by omega⟩
  rw [hk, Nat.add_sub_cancel] at hx
  have hcount : Text.openings (w.take (k + 1)) = Text.openings (w.take k) + 1 := by
    simp only [Text.openings]
    rw [List.take_add_one, hx, List.countP_append, Option.toList_some, List.countP_singleton,
      if_pos (decide_eq_true (opening_char hnamed))]
  have := Text.openings_take_le w (show head.start ≤ k by omega)
  rw [hk]
  omega

/-- Groups that are open begin in the control string, each with a bracket of its own. -/
structure Builder.Grounded (w : Text) (i : Nat) (b : Builder) : Prop where
  starts : ∀ f ∈ b.frames, f.head.start < w.length
  openings : b.frames.length ≤ Text.openings (w.take i)

namespace Builder.Grounded

theorem mono (h : b.Grounded w i) (hij : i ≤ j) : b.Grounded w j :=
  ⟨h.starts, h.openings.trans (Text.openings_take_le w hij)⟩

theorem push (h : b.Grounded w i) (n : Node) : (b.push n).Grounded w i := by
  obtain ⟨hstarts, hopenings⟩ := h
  unfold Builder.push
  split
  · exact ⟨hstarts, hopenings⟩
  · rename_i f fs hframes
    rw [hframes] at hstarts hopenings
    exact ⟨by simpa using hstarts, hopenings⟩

end Builder.Grounded

theorem grounded_of_reached (h : Builder.Reached w i b) : b.Grounded w i := by
  induction h with
  | start => exact ⟨by simp, Nat.zero_le _⟩
  | @add i j b b' lexeme hreached hlexeme hadds ih =>
    have hle := hlexeme.lt.1.le
    cases hadds with
    | nothing => exact ih.mono hle
    | text | copies | atom => exact (ih.mono hle).push _
    | opening =>
      obtain ⟨hread, rfl, rfl, -⟩ := hlexeme.read
      have hcount := openings_of_opening hread
      refine ⟨?_, (Nat.succ_le_succ ih.openings).trans hcount⟩
      simpa using ⟨hlexeme.lt.1.trans_le hlexeme.lt.2, ih.starts⟩
    | @separator head f fs hframes _ =>
      obtain ⟨hstarts, hopenings⟩ := ih.mono hle
      rw [hframes] at hstarts hopenings
      exact ⟨by simpa using hstarts, hopenings⟩
    | @closing head f fs n hframes hclose =>
      obtain ⟨hstarts, hopenings⟩ := ih.mono hle
      rw [hframes] at hstarts hopenings
      refine Builder.Grounded.push ⟨fun g hg => hstarts g (List.mem_cons_of_mem f hg), ?_⟩ n
      exact (Nat.le_succ _).trans hopenings

/-- **A refusal has its reason in the control string.** -/
theorem founded_parse (h : parse w = .error e) : Founded w e := by
  cases fails_of_parse h with
  | lexeme hlexeme => exact founded_readLexeme hlexeme
  | @add i j b lexeme hreached hlexeme hadd =>
    have hb := grounded_of_reached hreached
    cases lexeme with
    | text s => simp [Builder.add] at hadd
    | copies x count => simp [Builder.add] at hadd
    | directive command head =>
      obtain ⟨hread, rfl, rfl, -⟩ := hlexeme.read
      rcases Builder.of_add_error hadd with ⟨m, rfl⟩ | ⟨f, hf, m, rfl⟩ | ⟨⟨k, rfl⟩, hdepth, rfl⟩
      · exact .located (hlexeme.lt.1.trans_le hlexeme.lt.2)
      · exact .located (hb.starts f hf)
      · refine .tooDeep ?_
        calc greatestDepth ≤ b.frames.length := hdepth
          _ ≤ Text.openings (w.take head.start) := hb.openings
          _ < Text.openings (w.take head.stop) := openings_of_opening hread
          _ ≤ w.openings := (List.take_sublist head.stop w).countP_le
  | finish hreached hfinish =>
    have hb := grounded_of_reached hreached
    unfold Builder.finish at hfinish
    split at hfinish
    · simp at hfinish
    · rename_i f fs hframes
      exact Except.error.inj hfinish ▸ .located (hb.starts f (by simp [hframes]))

theorem ofSource_of_compile {result : Except Fault (List Node)} (h : compile w = result) :
    Formatter.ofSource (.text w) = result.map Formatter.mk := by
  rw [← h, Formatter.ofSource]
  cases compile w <;> rfl

/-- **A control string is compiled, or a complaint about one of its characters is made, unless it
goes beyond one of the limits.** -/
theorem ofSource_text (w : Text) :
    (∃ f, Formatter.ofSource (.text w) = .ok f) ∨
    (∃ offset complaint, offset < w.length ∧
      Formatter.ofSource (.text w) = .error (.malformed w offset complaint)) ∨
    (Formatter.ofSource (.text w) = .error .wrongValue ∧ w.HasUnreadableNumber) ∨
    (∃ e, Formatter.ofSource (.text w) = .error (.ofExcess e) ∧ w.HasExcessiveCount) ∨
    (Formatter.ofSource (.text w) = .error .tooDeep ∧ greatestDepth < w.openings) := by
  cases hparse : parse w with
  | ok nodes =>
    have hcompile : compile w = .ok nodes := by rw [compile, hparse]
    exact .inl ⟨⟨nodes⟩, ofSource_of_compile hcompile⟩
  | error e =>
    have hsource {e' : Fault} (h : compile w = .error e') :
        Formatter.ofSource (.text w) = .error e' := ofSource_of_compile h
    refine .inr ?_
    cases founded_parse hparse with
    | located hlt => exact .inl ⟨_, _, hlt, hsource (by rw [compile, hparse])⟩
    | unreadable h => exact .inr (.inl ⟨hsource (by rw [compile, hparse]), h⟩)
    | excessive h => exact .inr (.inr (.inl ⟨_, hsource (by rw [compile, hparse]), h⟩))
    | tooDeep h => exact .inr (.inr (.inr ⟨hsource (by rw [compile, hparse]), h⟩))

/-! ## Beyond the limits -/

theorem readParameter_unreadable {digits rest : Text} (hx : x.isDigit = true)
    (hdigits : ∀ y ∈ digits, Text.looksLikeDigit y = true)
    (hrest : ∀ y ∈ rest.head?, Text.looksLikeDigit y = false)
    (h : Text.readNatural? (x :: digits) = none) :
    readParameter? ⟨x :: (digits ++ rest), i⟩ = .error .unreadableInteger := by
  have htake : (digits ++ rest).takeWhile Text.looksLikeDigit = digits := by
    rw [List.takeWhile_append_of_pos hdigits]
    cases rest with
    | nil => simp
    | cons y rest => simp [hrest y rfl]
  have hcomma : x ≠ ',' := by rintro rfl; exact absurd hx (by decide)
  have hnumber : readNumber i x digits = .error .unreadableInteger := by
    simp only [readNumber, hx, if_true, h]
  simp only [readParameter?, if_neg hcomma, beginsNumber, hx, Bool.or_true, if_true, htake, hnumber,
    Except.map]

/-- **A first parameter that begins like a numeral and is none makes compiling fail**, and nothing
says where. -/
theorem ofSource_unreadable {digits rest : Text} (hx : x.isDigit = true)
    (hdigits : ∀ y ∈ digits, Text.looksLikeDigit y = true)
    (hrest : ∀ y ∈ rest.head?, Text.looksLikeDigit y = false)
    (h : Text.readNatural? (x :: digits) = none) :
    Formatter.ofSource (.text ('~' :: x :: (digits ++ rest))) = .error .wrongValue := by
  have hscan : scanParameters ⟨x :: (digits ++ rest), 1⟩ = .error .unreadableInteger := by
    have hparameter := readParameter_unreadable (i := 1) hx hdigits hrest h
    unfold scanParameters
    split <;> simp_all
  have hlexeme : readLexeme? ⟨'~' :: x :: (digits ++ rest), 0⟩ = .error .unreadableInteger := by
    simp [readLexeme?, readDirective, hscan, bind, Except.bind, Except.map]
  have hparse : parse ('~' :: x :: (digits ++ rest)) = .error .unreadableInteger := by
    unfold parse parseFrom
    split <;> simp_all
  have hcompile : compile ('~' :: x :: (digits ++ rest)) = .error .wrongValue := by
    rw [compile, hparse]
  exact ofSource_of_compile hcompile

/-- A superscript looks like a digit and is none. -/
theorem exists_ofSource_unlocated : ∃ w : Text, ¬((∃ f, Formatter.ofSource (.text w) = .ok f) ∨
    ∃ offset complaint, offset < w.length ∧
      Formatter.ofSource (.text w) = .error (.malformed w offset complaint)) := by
  have hdigits : ∀ y ∈ ['²'], Text.looksLikeDigit y = true := by
    rintro y (_ | ⟨_, ⟨⟩⟩)
    rfl
  have hrest : ∀ y ∈ ['D'].head?, Text.looksLikeDigit y = false := by
    rintro y ⟨⟩
    rfl
  have h : Formatter.ofSource (.text ['~', '1', '²', 'D']) = .error .wrongValue :=
    @ofSource_unreadable '1' ['²'] ['D'] rfl hdigits hrest (by decide)
  refine ⟨['~', '1', '²', 'D'], ?_⟩
  rintro (⟨f, hf⟩ | ⟨offset, complaint, -, he⟩)
  · simp [h] at hf
  · simp [h] at he

end Tilde
