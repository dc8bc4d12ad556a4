import Mathlib.Data.List.Infix
import Mathlib.Data.List.TakeWhile
import Slotwise.Configuration.Scalar
/-!
# Scanners and quoted texts

What scanners answer on texts that start in a known way, and what they can have taken where they
answer at all: characters from the front, with the rest as it was (`Takes`).

A text in double quotes is read as it stands if none of its characters needs an escape
(`quotedText_of_plain`). Nothing else is read as it stands: an escape is longer than its character,
and the quotes of a text on several lines do not belong to it (`plain_of_quotedText`).
-/

namespace Slotwise.Configuration

namespace Scanner

variable {α β : Type}

/-! ## Answers -/

theorem bind_apply (scanner : Scanner α) (next : α → Scanner β) (cs : List Char) :
    (scanner >>= next) cs = (scanner cs).bind fun (x, rest) => next x rest := rfl

theorem bind_of_eq {scanner : Scanner α} {next : α → Scanner β} {cs rest : List Char} {x : α}
    (h : scanner cs = some (x, rest)) : (scanner >>= next) cs = next x rest := by
  rw [bind_apply, h, Option.bind_some]

theorem bind_eq_some_iff {scanner : Scanner α} {next : α → Scanner β} {cs rest : List Char}
    {y : β} :
    (scanner >>= next) cs = some (y, rest) ↔
      ∃ x between, scanner cs = some (x, between) ∧ next x between = some (y, rest) := by
  rw [bind_apply, Option.bind_eq_some_iff]
  exact Prod.exists

theorem pure_eq_some_iff {cs rest : List Char} {x y : α} :
    (pure x : Scanner α) cs = some (y, rest) ↔ x = y ∧ cs = rest := by
  show some (x, cs) = some (y, rest) ↔ _
  rw [Option.some.injEq, Prod.mk.injEq]

/-- A step that may give nothing, without taking anything. -/
theorem bind_lift (answer : Option α) (next : α → Scanner β) (cs : List Char) :
    ((liftM answer : Scanner α) >>= next) cs = answer.bind fun x => next x cs := by
  cases answer <;> rfl

theorem startsWith_apply (text : String) (cs : List Char) :
    startsWith text cs = some (text.toList.isPrefixOf cs, cs) := rfl

theorem takeWhile_apply (p : Char → Bool) (cs : List Char) :
    takeWhile p cs = some (cs.takeWhile p, cs.dropWhile p) := rfl

theorem exactly_apply (text : String) (cs : List Char) :
    exactly text cs =
      if text.toList.isPrefixOf cs then some ((), cs.drop text.length) else none := by
  rw [exactly, bind_of_eq (startsWith_apply text cs)]
  split <;> rfl

theorem exactly?_apply (text : String) (cs : List Char) :
    exactly? text cs =
      if text.toList.isPrefixOf cs then some (true, cs.drop text.length) else some (false, cs) := by
  rw [exactly?, bind_of_eq (startsWith_apply text cs)]
  split
  · next comes => exact bind_of_eq ((exactly_apply text cs).trans (if_pos comes))
  · rfl

theorem eq_of_exactly {text : String} {cs rest : List Char}
    (h : exactly text cs = some ((), rest)) : cs = text.toList ++ rest := by
  rw [exactly_apply] at h
  split at h
  · next comes =>
    cases h
    obtain ⟨behind, rfl⟩ := List.isPrefixOf_iff_prefix.1 comes
    rw [← String.length_toList, List.drop_left]
  · cases h

theorem eq_of_exactly? {text : String} {cs rest : List Char}
    (h : exactly? text cs = some (true, rest)) : cs = text.toList ++ rest := by
  rw [exactly?_apply] at h
  refine eq_of_exactly ((exactly_apply text cs).trans ?_)
  split at h <;> cases h
  next comes => exact if_pos comes

theorem one_cons (p : Char → Bool) (c : Char) (cs : List Char) :
    one p (c :: cs) = if p c then some (c, cs) else none := by
  show (if p c then (do set cs; return c) else failure : Scanner Char) (c :: cs) = _
  split <;> rfl

theorem require_apply (condition : Bool) (cs : List Char) :
    require condition cs = if condition then some ((), cs) else none := by
  rw [require]
  split <;> rfl

theorem repeatBelow_succ (step : Scanner (Option (List α))) (bound : Nat) (cs : List Char) :
    repeatBelow step (bound + 1) cs = (step cs).bind fun (more, rest) =>
      match more with
      | none => some ([], rest)
      | some xs => (repeatBelow step bound rest).map fun (ys, rest) => (xs ++ ys, rest) := by
  rw [repeatBelow, bind_apply]
  congr 1
  funext ⟨more, rest⟩
  cases more with
  | none => rfl
  | some xs =>
    show (repeatBelow step bound >>= fun ys => pure (xs ++ ys)) rest =
      (repeatBelow step bound rest).map fun (ys, rest) => (xs ++ ys, rest)
    rw [bind_apply]
    cases repeatBelow step bound rest <;> rfl

theorem repeated_of_none {step : Scanner (Option (List α))} {cs rest : List Char}
    (h : step cs = some (none, rest)) : repeated step cs = some ([], rest) := by
  show repeatBelow step (cs.length + 1) cs = _
  rw [repeatBelow_succ, h, Option.bind_some]

theorem repeated_of_some {step : Scanner (Option (List α))} {c : Char}
    {cs between rest : List Char} {xs : List α} (first : step (c :: cs) = some (some xs, between))
    (last : step between = some (none, rest)) : repeated step (c :: cs) = some (xs, rest) := by
  show repeatBelow step (cs.length + 1 + 1) (c :: cs) = _
  rw [repeatBelow_succ, first, Option.bind_some]
  show (repeatBelow step (cs.length + 1) between).map (fun (ys, rest) => (xs ++ ys, rest)) = _
  rw [repeatBelow_succ, last]
  exact congrArg some (Prod.ext (List.append_nil xs) rfl)

/-! ## What is taken -/

/-- Where the scanner answers, it has taken characters from the front of the text. -/
def Takes (scanner : Scanner α) : Prop :=
  ∀ cs x rest, scanner cs = some (x, rest) → rest <:+ cs

theorem takes_pure (x : α) : Takes (pure x : Scanner α) := by
  intro cs y rest h
  obtain ⟨-, rfl⟩ := pure_eq_some_iff.1 h
  exact List.suffix_refl _

theorem Takes.bind {scanner : Scanner α} {next : α → Scanner β} (takes : Takes scanner)
    (then_ : ∀ x, Takes (next x)) : Takes (scanner >>= next) := by
  intro cs y rest h
  obtain ⟨x, between, first, second⟩ := bind_eq_some_iff.1 h
  exact (then_ x between y rest second).trans (takes cs x between first)

theorem takes_exactly (text : String) : Takes (exactly text) := by
  intro cs x rest h
  rw [exactly_apply] at h
  split at h
  · cases h
    exact List.drop_suffix _ _
  · cases h

theorem takes_exactly? (text : String) : Takes (exactly? text) := by
  intro cs x rest h
  rw [exactly?_apply] at h
  split at h <;> cases h
  · exact List.drop_suffix _ _
  · exact List.suffix_refl _

theorem takes_takeWhile (p : Char → Bool) : Takes (takeWhile p) := by
  intro cs x rest h
  cases h
  exact List.dropWhile_suffix p

theorem takes_require (condition : Bool) : Takes (require condition) := by
  intro cs x rest h
  rw [require_apply] at h
  split at h <;> cases h
  exact List.suffix_refl _

theorem takes_repeated {step : Scanner (Option (List α))} (takes : Takes step) :
    Takes (repeated step) := by
  intro cs xs rest h
  have below : ∀ bound cs xs, repeatBelow step bound cs = some (xs, rest) → rest <:+ cs := by
    intro bound
    induction bound with
    | zero =>
      intro cs xs h
      cases h
    | succ bound ih =>
      intro cs xs h
      rw [repeatBelow_succ, Option.bind_eq_some_iff] at h
      obtain ⟨⟨more, between⟩, first, h⟩ := h
      have front := takes cs more between first
      cases more with
      | none =>
        cases h
        exact front
      | some added =>
        obtain ⟨⟨ys, _⟩, again, same⟩ := Option.map_eq_some_iff.1 h
        cases same
        exact (ih between ys again).trans front
  exact below _ cs xs h

theorem takes_spaces : Takes spaces :=
  (takes_takeWhile isSpace).bind fun _ => takes_pure _

theorem exists_of_lineEnd? {cs rest : List Char} (h : lineEnd? cs = some (true, rest)) :
    ∃ used, cs = used ++ rest ∧ used ≠ [] := by
  obtain ⟨found, between, first, second⟩ := bind_eq_some_iff.1 h
  cases found with
  | true =>
    obtain ⟨-, rfl⟩ := pure_eq_some_iff.1 second
    exact ⟨_, eq_of_exactly? first, by decide⟩
  | false =>
    obtain ⟨front, rfl⟩ := takes_exactly? "\n" cs false between first
    exact ⟨front ++ "\r\n".toList, by rw [eq_of_exactly? second, List.append_assoc],
      List.append_ne_nil_of_right_ne_nil _ (by decide)⟩

theorem takes_lineEnd? : Takes lineEnd? := by
  refine (takes_exactly? "\n").bind fun found => ?_
  cases found
  · exact takes_exactly? "\r\n"
  · exact takes_pure true

end Scanner

open Scanner

/-! ## Texts in double quotes -/

/-- Whether a character stands for itself between double quotes. -/
def IsPlainChar (c : Char) : Prop :=
  isTextChar c = true ∧ c ≠ '"' ∧ c ≠ '\\'

instance (c : Char) : Decidable (IsPlainChar c) :=
  inferInstanceAs (Decidable (isTextChar c = true ∧ c ≠ '"' ∧ c ≠ '\\'))

/-- Whether a text is written between double quotes as it is. -/
def IsPlain (text : String) : Prop :=
  ∀ c ∈ text.toList, IsPlainChar c

instance (text : String) : Decidable (IsPlain text) :=
  List.decidableBAll IsPlainChar text.toList

/-- One step of a text in double quotes. -/
def basicStep : Scanner (Option (List Char)) := do
  if ← exactly? "\"" then return none
  else if ← exactly? "\\" then return some [← escape]
  else return some [← one isTextChar]

theorem basicBody_eq : basicBody = repeated basicStep := rfl

theorem basicStep_quote (cs : List Char) : basicStep ('"' :: cs) = some (none, cs) := rfl

theorem basicStep_backslash (cs : List Char) :
    basicStep ('\\' :: cs) = (escape cs).map fun (c, rest) => (some [c], rest) := by
  show (escape >>= fun c => pure (some [c])) cs = _
  rw [bind_apply]
  cases escape cs <;> rfl

theorem basicStep_other {c : Char} (notQuote : c ≠ '"') (notBackslash : c ≠ '\\')
    (cs : List Char) :
    basicStep (c :: cs) = if isTextChar c then some (some [c], cs) else none := by
  have quote : exactly? "\"" (c :: cs) = some (false, c :: cs) := by
    rw [exactly?_apply, if_neg]
    simp [Ne.symm notQuote]
  have backslash : exactly? "\\" (c :: cs) = some (false, c :: cs) := by
    rw [exactly?_apply, if_neg]
    simp [Ne.symm notBackslash]
  rw [basicStep, bind_of_eq quote]
  show (exactly? "\\" >>= _) (c :: cs) = _
  rw [bind_of_eq backslash]
  show (one isTextChar >>= fun c => pure (some [c])) (c :: cs) = _
  rw [bind_apply, one_cons]
  split <;> rfl

/-- A text of plain characters is read up to its closing quote. -/
theorem basicBody_of_plain {body : List Char} (plain : ∀ c ∈ body, IsPlainChar c)
    (rest : List Char) : basicBody (body ++ '"' :: rest) = some (body, rest) := by
  have below : ∀ bound, body.length < bound →
      repeatBelow basicStep bound (body ++ '"' :: rest) = some (body, rest) := by
    induction body with
    | nil =>
      intro bound enough
      obtain ⟨bound, rfl⟩ := Nat.exists_eq_succ_of_ne_zero (Nat.ne_of_gt enough)
      exact repeatBelow_succ _ _ _
    | cons c body ih =>
      intro bound enough
      obtain ⟨bound, rfl⟩ := Nat.exists_eq_succ_of_ne_zero (Nat.ne_of_gt (Nat.zero_lt_of_lt enough))
      obtain ⟨⟨text, notQuote, notBackslash⟩, others⟩ := List.forall_mem_cons.1 plain
      rw [List.cons_append, repeatBelow_succ, basicStep_other notQuote notBackslash, if_pos text,
        Option.bind_some]
      dsimp only
      rw [ih others bound (by simpa using enough)]
      rfl
  rw [basicBody_eq]
  refine below _ ?_
  rw [List.length_append]
  omega

theorem eq_of_one {p : Char → Bool} {cs rest : List Char} {c : Char}
    (h : one p cs = some (c, rest)) : cs = c :: rest ∧ p c = true := by
  cases cs with
  | nil => cases h
  | cons head tail =>
    rw [one_cons] at h
    split at h <;> cases h
    exact ⟨rfl, ‹_›⟩

theorem eq_of_exactlyMany {p : Char → Bool} {count : Nat} {cs taken rest : List Char}
    (h : exactlyMany p count cs = some (taken, rest)) :
    cs = taken ++ rest ∧ ∀ c ∈ taken, p c = true := by
  induction count generalizing cs taken with
  | zero =>
    obtain ⟨rfl, rfl⟩ := pure_eq_some_iff.1 h
    exact ⟨rfl, List.forall_mem_nil _⟩
  | succ count ih =>
    obtain ⟨c, between, first, h⟩ := bind_eq_some_iff.1 h
    obtain ⟨more, last, again, h⟩ := bind_eq_some_iff.1 h
    obtain ⟨rfl, rfl⟩ := pure_eq_some_iff.1 h
    obtain ⟨rfl, holds⟩ := eq_of_one first
    obtain ⟨rfl, others⟩ := ih again
    exact ⟨rfl, List.forall_mem_cons.2 ⟨holds, others⟩⟩

theorem exists_of_codePoint {count : Nat} {cs rest : List Char} {c : Char}
    (h : codePoint count cs = some (c, rest)) : ∃ used, cs = used ++ rest ∧ '\n' ∉ used := by
  obtain ⟨digits, between, taken, valid⟩ := bind_eq_some_iff.1 h
  obtain ⟨rfl, hex⟩ := eq_of_exactlyMany taken
  by_cases known : (ofDigits 16 digits).isValidChar
  · rw [dif_pos known] at valid
    obtain ⟨-, rfl⟩ := pure_eq_some_iff.1 valid
    exact ⟨digits, rfl, fun inside => absurd (hex _ inside) (by decide)⟩
  · rw [dif_neg known] at valid
    cases valid

/-- An escape takes something, but no line end. -/
theorem exists_of_escape {cs rest : List Char} {c : Char} (h : escape cs = some (c, rest)) :
    ∃ used, cs = used ++ rest ∧ used ≠ [] ∧ '\n' ∉ used := by
  obtain ⟨first, between, taken, stands⟩ := bind_eq_some_iff.1 h
  obtain ⟨rfl, -⟩ := eq_of_one taken
  have alone (same : between = rest) (other : first ≠ '\n') :
      ∃ used, first :: between = used ++ rest ∧ used ≠ [] ∧ '\n' ∉ used := by
    subst same
    exact ⟨[first], rfl, List.cons_ne_nil _ _, by simpa using Ne.symm other⟩
  have before {count : Nat} (h : codePoint count between = some (c, rest))
      (other : first ≠ '\n') :
      ∃ used, first :: between = used ++ rest ∧ used ≠ [] ∧ '\n' ∉ used := by
    obtain ⟨used, rfl, absent⟩ := exists_of_codePoint h
    exact ⟨first :: used, rfl, List.cons_ne_nil _ _, by simp [Ne.symm other, absent]⟩
  split at stands
  case h_8 => exact before stands (by decide)
  case h_9 => exact before stands (by decide)
  case h_10 => cases stands
  all_goals exact alone (pure_eq_some_iff.1 stands).2 (by decide)

/-- What a text in double quotes takes is no shorter than what is read, and as long only if it is
read as it stands. -/
theorem exists_of_basicBody {cs body rest : List Char} (h : basicBody cs = some (body, rest)) :
    ∃ used, cs = used ++ '"' :: rest ∧ '\n' ∉ used ∧ body.length ≤ used.length ∧
      (body.length = used.length → body = used ∧ ∀ c ∈ used, IsPlainChar c) := by
  have below : ∀ bound cs body, repeatBelow basicStep bound cs = some (body, rest) →
      ∃ used, cs = used ++ '"' :: rest ∧ '\n' ∉ used ∧ body.length ≤ used.length ∧
        (body.length = used.length → body = used ∧ ∀ c ∈ used, IsPlainChar c) := by
    intro bound
    induction bound with
    | zero =>
      intro cs body h
      cases h
    | succ bound ih =>
      intro cs body h
      rw [repeatBelow_succ, Option.bind_eq_some_iff] at h
      obtain ⟨⟨more, between⟩, step, h⟩ := h
      rcases cs with _ | ⟨c, cs⟩
      · cases step
      by_cases quote : c = '"'
      · subst quote
        rw [basicStep_quote] at step
        cases step
        cases h
        exact ⟨[], rfl, List.not_mem_nil, Nat.le_refl _, fun _ => ⟨rfl, List.forall_mem_nil _⟩⟩
      by_cases backslash : c = '\\'
      · subst backslash
        rw [basicStep_backslash] at step
        obtain ⟨⟨escaped, _⟩, escapes, same⟩ := Option.map_eq_some_iff.1 step
        cases same
        obtain ⟨⟨ys, _⟩, again, same⟩ := Option.map_eq_some_iff.1 h
        cases same
        obtain ⟨escapeUsed, rfl, some_, escapeAbsent⟩ := exists_of_escape escapes
        obtain ⟨used, rfl, absent, short, -⟩ := ih between ys again
        have long := List.length_pos_of_ne_nil some_
        refine ⟨'\\' :: (escapeUsed ++ used), by simp, by simp [escapeAbsent, absent], ?_, ?_⟩
        · simp only [List.singleton_append, List.length_cons, List.length_append]
          omega
        · simp only [List.singleton_append, List.length_cons, List.length_append]
          omega
      · rw [basicStep_other quote backslash] at step
        split at step <;> cases step
        next text =>
        obtain ⟨⟨ys, _⟩, again, same⟩ := Option.map_eq_some_iff.1 h
        cases same
        obtain ⟨used, rfl, absent, short, exact_⟩ := ih between ys again
        have other : '\n' ≠ c := by
          rintro rfl
          exact absurd text (by decide)
        refine ⟨c :: used, rfl, by simp [other, absent], by simpa using short, ?_⟩
        intro same
        obtain ⟨rfl, plain⟩ := exact_ (by simpa using same)
        exact ⟨rfl, List.forall_mem_cons.2 ⟨⟨text, quote, backslash⟩, plain⟩⟩
  rw [basicBody_eq] at h
  exact below _ cs body h

/-! ## Texts on several lines -/

theorem takes_lineJoin : Takes lineJoin := by
  refine (takes_exactly "\\").bind fun _ => takes_spaces.bind fun _ =>
    takes_lineEnd?.bind fun found => (takes_require found).bind fun _ => ?_
  refine (takes_repeated ?_).bind fun _ => takes_pure _
  refine takes_spaces.bind fun _ => takes_lineEnd?.bind fun found => ?_
  cases found
  · exact takes_pure _
  · exact takes_pure _

theorem exists_of_multilineStep {cs first rest : List Char}
    (h : multilineStep true cs = some (first, rest)) :
    ∃ used, cs = used ++ rest ∧ first.length ≤ used.length := by
  obtain ⟨ended, behind, ends, more⟩ := bind_eq_some_iff.1 h
  cases ended with
  | true =>
    obtain ⟨rfl, rfl⟩ := pure_eq_some_iff.1 more
    obtain ⟨used, rfl, some_⟩ := exists_of_lineEnd? ends
    exact ⟨used, rfl, List.length_pos_of_ne_nil some_⟩
  | false =>
    obtain ⟨front, rfl⟩ := takes_lineEnd? cs false behind ends
    have further {used : List Char} (taken : behind = used ++ rest)
        (enough : first.length ≤ used.length) :
        ∃ used, front ++ behind = used ++ rest ∧ first.length ≤ used.length := by
      refine ⟨front ++ used, by rw [taken, List.append_assoc], ?_⟩
      rw [List.length_append]
      omega
    obtain ⟨escapes, _, starts, more⟩ := bind_eq_some_iff.1 more
    cases starts
    split at more
    · obtain ⟨joined, _, joins, more⟩ := bind_eq_some_iff.1 more
      rw [attempt] at joins
      split at joins <;> cases joins
      · next joins =>
        obtain ⟨rfl, rfl⟩ := pure_eq_some_iff.1 more
        obtain ⟨used, taken⟩ := takes_lineJoin _ _ _ joins
        exact further taken.symm (Nat.zero_le _)
      · obtain ⟨_, between, backslash, more⟩ := bind_eq_some_iff.1 more
        obtain ⟨c, _, escapes, more⟩ := bind_eq_some_iff.1 more
        obtain ⟨rfl, rfl⟩ := pure_eq_some_iff.1 more
        obtain ⟨used, rfl, some_, -⟩ := exists_of_escape escapes
        refine further ((eq_of_exactly backslash).trans (List.append_assoc _ _ _).symm) ?_
        simp
    · obtain ⟨c, _, taken, more⟩ := bind_eq_some_iff.1 more
      obtain ⟨rfl, rfl⟩ := pure_eq_some_iff.1 more
      have single : behind = [c] ++ _ := (eq_of_one taken).1
      exact further single (Nat.le_refl _)

/-- What closes a text on several lines. -/
theorem exists_of_closingQuotes? {cs rest : List Char} {quotes : Option (List Char)}
    (h : closingQuotes? '"' cs = some (quotes, rest)) :
    (quotes = none ∧ rest = cs) ∨
      ∃ extra, quotes = some (List.replicate extra '"') ∧
        cs = List.replicate (extra + 3) '"' ++ rest := by
  obtain ⟨_, _, here, closes⟩ := bind_eq_some_iff.1 h
  cases here
  split at closes
  · obtain ⟨rfl, rfl⟩ := pure_eq_some_iff.1 closes
    exact .inl ⟨rfl, rfl⟩
  · next enough =>
    obtain ⟨_, _, dropped, closes⟩ := bind_eq_some_iff.1 closes
    cases dropped
    obtain ⟨rfl, rfl⟩ := pure_eq_some_iff.1 closes
    refine .inr ⟨_, rfl, ?_⟩
    have all : cs.takeWhile (· == '"') =
        List.replicate (cs.takeWhile (· == '"')).length '"' := by
      refine List.eq_replicate_of_mem fun c member => ?_
      exact beq_iff_eq.1 (List.mem_takeWhile_imp (p := (· == '"')) member)
    have taken : cs.take (min (cs.takeWhile (· == '"')).length 5) =
        List.replicate (min (cs.takeWhile (· == '"')).length 5) '"' := by
      calc cs.take (min (cs.takeWhile (· == '"')).length 5)
          = (cs.takeWhile (· == '"') ++ cs.dropWhile (· == '"')).take
              (min (cs.takeWhile (· == '"')).length 5) := by rw [List.takeWhile_append_dropWhile]
        _ = (cs.takeWhile (· == '"')).take (min (cs.takeWhile (· == '"')).length 5) :=
            List.take_append_of_le_length (Nat.min_le_left _ _)
        _ = List.replicate (min (cs.takeWhile (· == '"')).length 5) '"' := by
            rw [all, List.take_replicate, List.length_replicate, Nat.min_right_comm, Nat.min_self]
    rw [Nat.sub_add_cancel (Nat.le_of_not_lt enough), ← taken, List.take_append_drop]

/-- What a text on several lines takes ends with its quotes, and is longer than what is read. -/
theorem exists_of_multiline {cs body rest : List Char}
    (h : multiline '"' true cs = some (body, rest)) :
    ∃ used, cs = used ++ rest ∧ body.length + 3 ≤ used.length ∧ ['"', '"', '"'] <:+ used := by
  have below : ∀ bound cs body, multilineBelow '"' true bound cs = some (body, rest) →
      ∃ used, cs = used ++ rest ∧ body.length + 3 ≤ used.length ∧
        ['"', '"', '"'] <:+ used := by
    intro bound
    induction bound with
    | zero =>
      intro cs body h
      cases h
    | succ bound ih =>
      intro cs body h
      obtain ⟨quotes, between, closes, more⟩ := bind_eq_some_iff.1 h
      rcases exists_of_closingQuotes? closes with ⟨rfl, rfl⟩ | ⟨extra, rfl, rfl⟩
      · obtain ⟨first, behind, step, more⟩ := bind_eq_some_iff.1 more
        obtain ⟨others, last, again, more⟩ := bind_eq_some_iff.1 more
        obtain ⟨rfl, rfl⟩ := pure_eq_some_iff.1 more
        obtain ⟨front, rfl, short⟩ := exists_of_multilineStep step
        obtain ⟨used, rfl, enough, ends⟩ := ih behind others again
        refine ⟨front ++ used, (List.append_assoc _ _ _).symm, ?_, ?_⟩
        · simp only [List.length_append]
          omega
        · exact ends.trans (List.suffix_append _ _)
      · obtain ⟨rfl, rfl⟩ := pure_eq_some_iff.1 more
        refine ⟨_, rfl, by simp, ?_⟩
        rw [List.replicate_add]
        exact List.suffix_append _ _
  obtain ⟨ended, between, ends, more⟩ := bind_eq_some_iff.1 h
  obtain ⟨_, _, here, more⟩ := bind_eq_some_iff.1 more
  cases here
  obtain ⟨used, rfl, enough, closed⟩ := below _ between body more
  obtain ⟨front, rfl⟩ := takes_lineEnd? cs ended _ ends
  refine ⟨front ++ used, (List.append_assoc _ _ _).symm, ?_, closed.trans (List.suffix_append _ _)⟩
  rw [List.length_append]
  omega

/-! ## Texts as they are written -/

theorem quotedText_of_three (cs : List Char) :
    quotedText ('"' :: '"' :: '"' :: cs) =
      (multiline '"' true cs).map fun (body, rest) => (String.ofList body, rest) := by
  show (multiline '"' true >>= fun body => pure (String.ofList body)) cs =
    (multiline '"' true cs).map fun (body, rest) => (String.ofList body, rest)
  rw [bind_apply]
  cases multiline '"' true cs <;> rfl

theorem quotedText_of_one {cs : List Char} (single : ¬ ['"', '"'] <+: cs) :
    quotedText ('"' :: cs) =
      (basicBody cs).map fun (body, rest) => (String.ofList body, rest) := by
  have three : exactly? "\"\"\"" ('"' :: cs) = some (false, '"' :: cs) := by
    rw [exactly?_apply, if_neg]
    rw [List.isPrefixOf_iff_prefix]
    exact fun starts => single (List.cons_prefix_cons.1 starts).2
  have body : quotedBody ('"' :: cs) = basicBody cs := by
    rw [quotedBody, bind_of_eq three]
    rfl
  rw [quotedText, bind_apply, body]
  cases basicBody cs <;> rfl

theorem quotedText_of_plain {text : String} (plain : IsPlain text) {c : Char} (other : c ≠ '"')
    (rest : List Char) :
    quotedText ('"' :: (text.toList ++ '"' :: c :: rest)) = some (text, c :: rest) := by
  have single : ¬ ['"', '"'] <+: text.toList ++ '"' :: c :: rest := by
    intro starts
    cases textIs : text.toList with
    | nil =>
      rw [textIs] at starts
      simp [Ne.symm other] at starts
    | cons first more =>
      have quote : first ≠ '"' := (plain first (by simp [textIs])).2.1
      rw [textIs] at starts
      simp [Ne.symm quote] at starts
  rw [quotedText_of_one single, basicBody_of_plain plain, Option.map_some]
  dsimp only
  rw [String.ofList_toList]

/-- A text that is read as it was put between double quotes is plain, if a line end comes behind it
and three quotes nowhere. -/
theorem plain_of_quotedText {text : String} {tail rest : List Char}
    (apart : ¬ ['"', '"', '"'] <:+: tail)
    (h : quotedText ('"' :: (text.toList ++ '"' :: '\n' :: tail)) = some (text, rest)) :
    IsPlain text := by
  by_cases starts : ['"', '"'] <+: text.toList ++ '"' :: '\n' :: tail
  · -- the closing quotes would have to stand behind the line end
    exfalso
    obtain ⟨cs, split⟩ := starts
    rw [← split] at h
    obtain ⟨⟨body, _⟩, reads, same⟩ :=
      Option.map_eq_some_iff.1 ((quotedText_of_three cs).symm.trans h)
    cases same
    obtain ⟨_, rfl, long, front, rfl⟩ := exists_of_multiline reads
    rw [String.toList_ofList] at split
    simp only [List.length_append, List.length_cons, List.length_nil] at long
    have parts : (body ++ ['"', '\n']) ++ tail =
        ('"' :: '"' :: front) ++ (['"', '"', '"'] ++ rest) := by
      simpa using split.symm
    rcases List.append_eq_append_iff.1 parts with ⟨between, -, tailIs⟩ | ⟨between, bodyIs, behind⟩
    · exact apart ⟨between, rest, by rw [tailIs, List.append_assoc]⟩
    · have lengths := congrArg List.length bodyIs
      simp only [List.length_append, List.length_cons, List.length_nil] at lengths
      obtain rfl : between = [] := List.eq_nil_of_length_eq_zero (by omega)
      exact apart ⟨[], rest, by rw [List.nil_append, behind, List.nil_append]⟩
  · rw [quotedText_of_one starts] at h
    obtain ⟨⟨body, _⟩, reads, same⟩ := Option.map_eq_some_iff.1 h
    cases same
    rw [String.toList_ofList] at reads
    obtain ⟨used, parts, absent, short, alike⟩ := exists_of_basicBody reads
    have same : body.length = used.length := by
      rcases List.append_eq_append_iff.1 parts with ⟨more, rfl, behind⟩ | ⟨more, rfl, -⟩
      · match more with
        | [] => simp
        | [c] => simp at behind
        | c :: d :: more =>
          simp only [List.cons_append, List.cons.injEq] at behind
          obtain ⟨-, rfl, -⟩ := behind
          simp at absent
      · simp only [List.length_append] at short ⊢
        omega
    obtain ⟨rfl, plain⟩ := alike same
    rw [IsPlain, String.toList_ofList]
    exact plain

end Slotwise.Configuration
