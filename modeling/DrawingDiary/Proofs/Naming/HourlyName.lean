import DrawingDiary.Naming.HourlyName
import DrawingDiary.Proofs.Disk.Join
import DrawingDiary.Proofs.Naming.Month
import DrawingDiary.Proofs.Text.Bytes

/-!
# The grammar of hourly names

`IsHourlyName` says how the name of a drawing or a note is written, with the date and the hour
that it is for, and the reading of names accepts exactly these (`hourlyName?_eq_some_iff`). A
name is cut from its end, and the cut before the date may be made by counting bytes instead of
characters: `hourlyNameAtBytes?` does so, would fail at a cut inside of a character, and is
shown to never fail and to read the same (`hourlyNameAtBytes?_eq`). The names that are written
for notes are read back.
-/

namespace DrawingDiary

namespace Text

theorem splitLast?_eq_none_iff {c : Char} {s : List Char} : splitLast? c s = none ↔ c ∉ s := by
  induction s with
  | nil => simp [splitLast?]
  | cons x s ih =>
      rw [splitLast?, List.mem_cons, not_or, ← ih]
      cases splitLast? c s with
      | some parts => simp
      | none => simp [eq_comm]

/-- A text is cut at the last occurrence of a character and at no other. -/
theorem splitLast?_eq_some_iff {c : Char} {s before after : List Char} :
    splitLast? c s = some (before, after) ↔ s = before ++ c :: after ∧ c ∉ after := by
  refine ⟨fun h => ?_, fun ⟨hs, hafter⟩ => hs ▸ splitLast?_append_cons hafter before⟩
  induction s generalizing before with
  | nil => cases h
  | cons x s ih =>
      rw [splitLast?] at h
      cases hrest : splitLast? c s with
      | some parts =>
          rw [hrest] at h
          cases h
          obtain ⟨hs, hafter⟩ := ih hrest
          exact ⟨congrArg (x :: ·) hs, hafter⟩
      | none =>
          simp only [hrest] at h
          split at h
          next hx =>
            cases h
            exact ⟨by rw [hx, List.nil_append], splitLast?_eq_none_iff.mp hrest⟩
          · cases h

end Text

namespace Naming

open Text

/-- The number that a decimal digit stands for. -/
def digitNumber (d : Char) : Nat := d.toNat - '0'.toNat

/-- An hour as it is written, with one digit or two. -/
inductive IsWrittenHour : String → Hour → Prop where
  | one {d : Char} {hour : Hour} :
      d.isDigit = true → hour.val = digitNumber d → IsWrittenHour (String.ofList [d]) hour
  | two {t u : Char} {hour : Hour} :
      t.isDigit = true → u.isDigit = true → hour.val = 10 * digitNumber t + digitNumber u →
      IsWrittenHour (String.ofList [t, u]) hour

/-- The name of an hourly file as it is written, with the date and the hour that it is for. -/
inductive IsHourlyName : HourlyKind → String → HourlyName → Prop where
  | image {beginning date token : String} {hour : Hour} :
      beginning ≠ "" → IsWrittenDate date → IsWrittenHour token hour →
      IsHourlyName .image (beginning ++ "-" ++ date ++ "-" ++ token ++ ".png") ⟨date, hour⟩
  | event {date token : String} {hour : Hour} :
      IsWrittenDate date → IsWrittenHour token hour →
      IsHourlyName .event ("event-" ++ date ++ "-" ++ token ++ ".txt") ⟨date, hour⟩

section Parts

variable {kind : HourlyKind} {name date token : String} {hour : Hour} {s : List Char}

theorem digitsValue_singleton (d : Char) : digitsValue [d] = digitNumber d := by
  simp [digitsValue, digitNumber]

theorem digitsValue_pair (t u : Char) :
    digitsValue [t, u] = 10 * digitNumber t + digitNumber u := by
  simp [digitsValue, digitNumber]

theorem readHour?_eq_some_of_value (hdigits : isDigits s = true) (hshort : s.length ≤ 2)
    (hvalue : digitsValue s = hour.val) : readHour? s = some hour := by
  have hlt : digitsValue s < hoursPerDay := hvalue ▸ hour.isLt
  rw [readHour?, hdigits, decide_eq_true hshort, Bool.and_true, if_pos rfl, dif_pos hlt]
  exact congrArg some (Fin.ext hvalue)

theorem value_of_readHour? (h : readHour? s = some hour) :
    isDigits s = true ∧ s.length ≤ 2 ∧ digitsValue s = hour.val := by
  unfold readHour? at h
  split at h
  next hdigits =>
    split at h
    next hlt =>
      cases h
      rw [Bool.and_eq_true, decide_eq_true_eq] at hdigits
      exact ⟨hdigits.1, hdigits.2, rfl⟩
    · cases h
  · cases h

theorem readHour?_eq_some_iff :
    readHour? s = some hour ↔ IsWrittenHour (String.ofList s) hour := by
  constructor
  · intro h
    obtain ⟨hdigits, hshort, hvalue⟩ := value_of_readHour? h
    obtain ⟨hsome, hall⟩ := (Bool.and_eq_true _ _).mp hdigits
    match s, hsome, hall, hshort, hvalue with
    | [d], _, hall, _, hvalue =>
        rw [digitsValue_singleton] at hvalue
        exact .one (by simpa using hall) hvalue.symm
    | [t, u], _, hall, _, hvalue =>
        rw [digitsValue_pair] at hvalue
        have hboth : t.isDigit = true ∧ u.isDigit = true := by simpa using hall
        exact .two hboth.1 hboth.2 hvalue.symm
  · intro h
    generalize htoken : String.ofList s = token at h
    cases h with
    | one hd hvalue =>
        obtain rfl := String.ofList_injective htoken
        exact readHour?_eq_some_of_value (by simp [isDigits, hd]) (by simp)
          ((digitsValue_singleton _).trans hvalue.symm)
    | two ht hu hvalue =>
        obtain rfl := String.ofList_injective htoken
        exact readHour?_eq_some_of_value (by simp [isDigits, ht, hu]) (by simp)
          ((digitsValue_pair _ _).trans hvalue.symm)

theorem IsWrittenHour.dash_notMem (written : IsWrittenHour token hour) : '-' ∉ token.toList := by
  cases written with
  | one hd =>
      rw [String.toList_ofList, List.mem_singleton]
      rintro rfl
      cases hd
  | two ht hu =>
      rw [String.toList_ofList, List.mem_pair]
      rintro (rfl | rfl)
      · cases ht
      · cases hu

theorem IsWrittenDate.length {name : String} (written : IsWrittenDate name) :
    name.toList.length = 10 := by
  obtain ⟨year, month, day, htext, hyear, hmonth, hday, -⟩ := written
  simp [htext, hyear, hmonth, hday]

theorem isDate_iff : isDate s = true ↔ IsWrittenDate (String.ofList s) := by
  rw [← isDayName_iff, isDayName, String.toList_ofList]

/-- What may stand before the date: for a drawing anything and a dash, for a note one word. -/
theorem allowsHead_iff : kind.allowsHead s = true ↔
    match kind with
    | .image => ∃ beginning, beginning ≠ [] ∧ s = beginning ++ ['-']
    | .event => s = "event-".toList := by
  cases kind with
  | image =>
      simp only [HourlyKind.allowsHead, Bool.and_eq_true, decide_eq_true_eq, beq_iff_eq,
        List.getLast?_eq_some_iff]
      constructor
      · rintro ⟨hlength, beginning, rfl⟩
        exact ⟨beginning, by rintro rfl; simp at hlength, rfl⟩
      · rintro ⟨beginning, hsome, rfl⟩
        have := List.length_pos_iff.mpr hsome
        exact ⟨by simpa using this, beginning, rfl⟩
  | event => simp [HourlyKind.allowsHead]

theorem hourlyName?_eq_bind : hourlyName? kind name =
    ((dropSuffix? kind.ending name.toList).bind (splitLast? '-')).bind fun parts =>
      (readHour? parts.2).bind fun hour =>
        if isDate (parts.1.drop (parts.1.length - 10)) &&
            kind.allowsHead (parts.1.take (parts.1.length - 10)) then
          some ⟨String.ofList (parts.1.drop (parts.1.length - 10)), hour⟩
        else none := by
  rw [hourlyName?, Option.bind_assoc]
  rfl

/-- An hourly name consists of what stands before the date, the date, a dash, the hour and the
ending. -/
theorem hourlyName?_eq_some_iff_parts : hourlyName? kind name = some ⟨date, hour⟩ ↔
    ∃ head token, name.toList = head ++ date.toList ++ '-' :: token ++ kind.ending ∧
      kind.allowsHead head = true ∧ IsWrittenDate date ∧
      IsWrittenHour (String.ofList token) hour := by
  rw [hourlyName?_eq_bind]
  constructor
  · intro h
    obtain ⟨⟨front, token⟩, hparts, h⟩ := Option.bind_eq_some_iff.mp h
    obtain ⟨stem, hstem, hsplit⟩ := Option.bind_eq_some_iff.mp hparts
    obtain ⟨hour', hread, h⟩ := Option.bind_eq_some_iff.mp h
    split at h
    next hcond =>
      cases h
      rw [Bool.and_eq_true, isDate_iff] at hcond
      refine ⟨_, token, ?_, hcond.2, hcond.1, readHour?_eq_some_iff.mp hread⟩
      rw [String.toList_ofList, List.take_append_drop, ← (splitLast?_eq_some_iff.mp hsplit).1]
      exact dropSuffix?_eq_some_iff.mp hstem
    · cases h
  · rintro ⟨head, token, hname, hhead, hdate, htoken⟩
    have hdash : '-' ∉ token := by simpa using htoken.dash_notMem
    have hlength : (head ++ date.toList).length - 10 = head.length := by
      rw [List.length_append, hdate.length, Nat.add_sub_cancel]
    rw [dropSuffix?_eq_some_iff.mpr hname, Option.bind_some,
      splitLast?_eq_some_iff.mpr ⟨rfl, hdash⟩, Option.bind_some]
    simp only [readHour?_eq_some_iff.mpr htoken, Option.bind_some, hlength, List.drop_left,
      List.take_left, hhead, isDate_iff, String.ofList_toList, hdate, Bool.and_true, if_true]

end Parts

/-- The reading of names accepts exactly what is an hourly name. -/
theorem hourlyName?_eq_some_iff {kind : HourlyKind} {name : String} {parsed : HourlyName} :
    hourlyName? kind name = some parsed ↔ IsHourlyName kind name parsed := by
  obtain ⟨date, hour⟩ := parsed
  rw [hourlyName?_eq_some_iff_parts]
  constructor
  · rintro ⟨head, token, hname, hhead, hdate, htoken⟩
    have hall : name = String.ofList head ++ date ++ "-" ++ String.ofList token ++
        String.ofList kind.ending := by
      apply String.toList_injective
      rw [hname]
      simp
    rw [hall]
    cases kind with
    | image =>
        obtain ⟨beginning, hsome, rfl⟩ := allowsHead_iff.mp hhead
        have hbeginning : String.ofList beginning ≠ "" := fun hempty =>
          hsome (String.ofList_injective (hempty.trans String.ofList_nil.symm))
        rw [String.ofList_append]
        exact .image hbeginning hdate htoken
    | event =>
        obtain rfl := allowsHead_iff.mp hhead
        exact .event hdate htoken
  · intro h
    cases h with
    | @image beginning _ token _ hsome hdate htoken =>
        refine ⟨beginning.toList ++ ['-'], token.toList, ?_, ?_, hdate, ?_⟩
        · simp [HourlyKind.ending]
        · refine allowsHead_iff.mpr ⟨_, fun hempty => hsome ?_, rfl⟩
          exact String.toList_eq_nil_iff.mp hempty
        · rwa [String.ofList_toList]
    | @event _ token _ hdate htoken =>
        refine ⟨"event-".toList, token.toList, ?_, allowsHead_iff.mpr rfl, hdate, ?_⟩
        · simp [HourlyKind.ending]
        · rwa [String.ofList_toList]

theorem IsHourlyName.unique {kind : HourlyKind} {name : String} {parsed parsed' : HourlyName}
    (h : IsHourlyName kind name parsed) (h' : IsHourlyName kind name parsed') :
    parsed = parsed' := by
  have hread := hourlyName?_eq_some_iff.mpr h
  rw [hourlyName?_eq_some_iff.mpr h'] at hread
  exact (Option.some.inj hread).symm

theorem IsHourlyName.isWrittenDate {kind : HourlyKind} {name : String} {parsed : HourlyName}
    (h : IsHourlyName kind name parsed) : IsWrittenDate parsed.date := by
  cases h with
  | image _ hdate _ => exact hdate
  | event hdate _ => exact hdate

section Bytes

inductive CutError where
  /-- the position is inside of a character -/
  | insideCharacter
deriving DecidableEq, Repr

/-- Pieces that are groups of digits of the given sizes, in bytes. -/
def areDigitGroups : List Nat → List (List Char) → Bool
  | [], [] => true
  | n :: sizes, piece :: pieces =>
    String.utf8Len piece == n && (bytes piece).all isDigitByte && areDigitGroups sizes pieces
  | _, _ => false

/-- A date, read piece by piece and in bytes. -/
def isDateAtBytes (token : List Char) : Bool :=
  String.utf8Len token == 10 && areDigitGroups [4, 2, 2] (splitAll '-' token)

/-- What may stand before the date, with its length in bytes. -/
def HourlyKind.allowsHeadAtBytes : HourlyKind → List Char → Bool
  | .image, head => 1 < String.utf8Len head && head.getLast? == some '-'
  | .event, head => head == "event-".toList

/-- The date before an hour, where the text is cut by counting ten bytes back. The date is asked
for and may be missing; what stands before it is taken, and that fails when the cut is inside of
a character. -/
def datedAtBytes? (kind : HourlyKind) (front : List Char) (hour : Hour) :
    Except CutError (Option HourlyName) :=
  if String.utf8Len front < 10 then .ok none
  else
    match (splitAtByte? (String.utf8Len front - 10) front).map (·.2) with
    | none => .ok none
    | some date =>
      if isDateAtBytes date then
        match (splitAtByte? (String.utf8Len front - 10) front).map (·.1) with
        | none => .error .insideCharacter
        | some head =>
          .ok (if kind.allowsHeadAtBytes head then some ⟨String.ofList date, hour⟩ else none)
      else .ok none

/-- The date and hour in the name of an hourly file, read in bytes. -/
def hourlyNameAtBytes? (kind : HourlyKind) (name : String) : Except CutError (Option HourlyName) :=
  match (dropSuffix? kind.ending name.toList).bind (splitLast? '-') with
  | none => .ok none
  | some (front, token) =>
    if token.isEmpty || 2 < String.utf8Len token || !(bytes token).all isDigitByte then .ok none
    else if h : digitsValue token < hoursPerDay then datedAtBytes? kind front ⟨_, h⟩
    else .ok none

variable {s front head date : List Char}

theorem utf8Len_of_digits (h : ∀ c ∈ s, c = '-' ∨ c.isDigit = true) :
    String.utf8Len s = s.length := by
  refine utf8Len_of_ascii fun c hc => ?_
  rcases h c hc with rfl | hdigit
  · decide
  · simp only [Char.isDigit, Bool.and_eq_true, decide_eq_true_eq] at hdigit
    exact UInt32.le_trans hdigit.2 (by decide)

theorem digits_at_bytes (p : Nat → Bool) (s : List Char) :
    (p (String.utf8Len s) && (bytes s).all isDigitByte) = (p s.length && s.all Char.isDigit) := by
  rw [all_isDigitByte_bytes]
  cases hdigits : s.all Char.isDigit with
  | false => rw [Bool.and_false, Bool.and_false]
  | true => rw [utf8Len_of_digits fun c hc => .inr (List.all_eq_true.mp hdigits c hc)]

/-- The pieces between the dashes are the groups that are read one after the other. -/
theorem areDigitGroups_splitAll (n : Nat) (sizes : List Nat) (s : List Char) :
    areDigitGroups (n :: sizes) (splitAll '-' s) = digitGroups (n :: sizes) s := by
  induction sizes generalizing n s with
  | nil =>
      by_cases hdash : '-' ∈ s
      · obtain ⟨piece, rest, rfl, hpiece⟩ := List.eq_append_cons_of_mem hdash
        obtain ⟨next, more, hrest⟩ := List.exists_cons_of_ne_nil (splitAll_ne_nil '-' rest)
        rw [splitAll_append_cons, splitAll_of_not_mem hpiece, hrest]
        have hnone : ¬ digitGroups [n] (piece ++ '-' :: rest) = true := fun h =>
          absurd ((digitGroups_singleton_iff.mp h).2 '-' hdash) (by decide)
        rw [Bool.eq_false_iff.mpr hnone]
        simp [areDigitGroups]
      · rw [splitAll_of_not_mem hdash]
        simp only [areDigitGroups, Bool.and_true]
        exact digits_at_bytes (· == n) s
  | cons m sizes ih =>
      by_cases hdash : '-' ∈ s
      · obtain ⟨piece, rest, rfl, hpiece⟩ := List.eq_append_cons_of_mem hdash
        rw [splitAll_append_cons, splitAll_of_not_mem hpiece, List.singleton_append,
          areDigitGroups, ih, digits_at_bytes (· == n), Bool.eq_iff_iff, digitGroups_cons_iff]
        simp only [Bool.and_eq_true, beq_iff_eq, List.all_eq_true]
        constructor
        · rintro ⟨⟨hlength, hdigits⟩, hrest⟩
          exact ⟨piece, rest, rfl, hlength, hdigits, hrest⟩
        · rintro ⟨digits, others, heq, hlength, hdigits, hothers⟩
          have hdigitsDash : '-' ∉ digits := fun hmem => absurd (hdigits '-' hmem) (by decide)
          have hsame := splitFirst?_append_cons hpiece rest
          rw [heq, splitFirst?_append_cons hdigitsDash] at hsame
          cases hsame
          exact ⟨⟨hlength, hdigits⟩, hothers⟩
      · rw [splitAll_of_not_mem hdash]
        have hnone : ¬ digitGroups (n :: m :: sizes) s = true := fun h => by
          obtain ⟨digits, rest, rfl, -⟩ := digitGroups_cons_iff.mp h
          simp at hdash
        rw [Bool.eq_false_iff.mpr hnone]
        simp [areDigitGroups]

theorem utf8Len_of_isDate (h : isDate s = true) : String.utf8Len s = 10 ∧ s.length = 10 := by
  have written := isDate_iff.mp h
  have hlength : s.length = 10 := by simpa using written.length
  refine ⟨?_, hlength⟩
  rw [utf8Len_of_digits fun c hc => written.isDigit (by rwa [String.toList_ofList]), hlength]

theorem isDateAtBytes_eq (s : List Char) : isDateAtBytes s = isDate s := by
  rw [isDateAtBytes, areDigitGroups_splitAll]
  change (_ && isDate s) = isDate s
  cases h : isDate s with
  | false => rw [Bool.and_false]
  | true => rw [(utf8Len_of_isDate h).1]; rfl

theorem allowsHeadAtBytes_eq (kind : HourlyKind) (s : List Char) :
    kind.allowsHeadAtBytes s = kind.allowsHead s := by
  cases kind with
  | event => rfl
  | image =>
      rw [Bool.eq_iff_iff]
      simp only [HourlyKind.allowsHeadAtBytes, HourlyKind.allowsHead, Bool.and_eq_true,
        decide_eq_true_eq, beq_iff_eq, List.getLast?_eq_some_iff]
      refine and_congr_left ?_
      rintro ⟨beginning, rfl⟩
      cases beginning with
      | nil => decide
      | cons c beginning =>
          have hpos := c.utf8Size_pos
          have hdash : ('-' : Char).utf8Size = 1 := by decide
          simp only [String.utf8Len_append, String.utf8Len_cons, List.length_append,
            List.length_cons, String.utf8Len_nil, List.length_nil, hdash]
          omega

/-- Before a date a name is cut by ten characters or by ten bytes alike. -/
theorem splitAtByte?_of_date (h : isDate (front.drop (front.length - 10)) = true) :
    ¬ String.utf8Len front < 10 ∧ splitAtByte? (String.utf8Len front - 10) front =
      some (front.take (front.length - 10), front.drop (front.length - 10)) := by
  have hbytes := (utf8Len_of_isDate h).1
  have hsum := String.utf8Len_append (front.take (front.length - 10))
    (front.drop (front.length - 10))
  rw [List.take_append_drop, hbytes] at hsum
  refine ⟨by omega, splitAtByte?_eq_some_iff.mpr ⟨(List.take_append_drop _ _).symm, by omega⟩⟩

theorem eq_of_splitAtByte? {n : Nat} (hsplit : splitAtByte? n front = some (head, date))
    (hdate : isDate date = true) :
    head = front.take (front.length - 10) ∧ date = front.drop (front.length - 10) := by
  obtain ⟨rfl, -⟩ := splitAtByte?_eq_some_iff.mp hsplit
  have hlength : (head ++ date).length - 10 = head.length := by
    rw [List.length_append, (utf8Len_of_isDate hdate).2, Nat.add_sub_cancel]
  rw [hlength, List.take_left, List.drop_left]
  exact ⟨rfl, rfl⟩

theorem datedAtBytes?_eq (kind : HourlyKind) (front : List Char) (hour : Hour) :
    datedAtBytes? kind front hour =
      .ok (if isDate (front.drop (front.length - 10)) &&
          kind.allowsHead (front.take (front.length - 10)) then
        some ⟨String.ofList (front.drop (front.length - 10)), hour⟩ else none) := by
  unfold datedAtBytes?
  cases hdate : isDate (front.drop (front.length - 10)) with
  | true =>
      obtain ⟨hlong, hsplit⟩ := splitAtByte?_of_date hdate
      simp only [hlong, hsplit, Option.map_some, isDateAtBytes_eq, hdate, allowsHeadAtBytes_eq,
        if_true, if_false, Bool.true_and]
  | false =>
      rw [Bool.false_and, if_neg Bool.false_ne_true]
      split
      · rfl
      · cases hsplit : splitAtByte? (String.utf8Len front - 10) front with
        | none => rfl
        | some parts =>
            have hno : isDate parts.2 = false := by
              rw [Bool.eq_false_iff]
              intro hdate'
              rw [(eq_of_splitAtByte? hsplit hdate').2, hdate] at hdate'
              cases hdate'
            simp only [Option.map_some, isDateAtBytes_eq, hno, Bool.false_eq_true, if_false]

theorem hourDigits_at_bytes (token : List Char) :
    (token.isEmpty || decide (2 < String.utf8Len token) || !(bytes token).all isDigitByte) =
      !(isDigits token && decide (token.length ≤ 2)) := by
  have hshort := digits_at_bytes (fun n => decide (n ≤ 2)) token
  have hlong : decide (2 < String.utf8Len token) = !decide (String.utf8Len token ≤ 2) := by
    rw [← decide_not, decide_eq_decide, Nat.not_le]
  rw [hlong, Bool.or_assoc, ← Bool.not_and, hshort, isDigits, Bool.and_assoc, Bool.not_and (!_),
    Bool.not_not, Bool.and_comm (token.all _)]

/-- Read in bytes, a name never fails to be cut and gives the same date and hour. -/
theorem hourlyNameAtBytes?_eq (kind : HourlyKind) (name : String) :
    hourlyNameAtBytes? kind name = .ok (hourlyName? kind name) := by
  rw [hourlyName?_eq_bind, hourlyNameAtBytes?]
  cases (dropSuffix? kind.ending name.toList).bind (splitLast? '-') with
  | none => rfl
  | some parts =>
      obtain ⟨front, token⟩ := parts
      simp only [Option.bind_some, hourDigits_at_bytes, readHour?]
      cases isDigits token && decide (token.length ≤ 2) with
      | false => rfl
      | true =>
          simp only [Bool.not_true, Bool.false_eq_true, if_false, if_true]
          split
          · exact datedAtBytes?_eq kind front _
          · rfl

end Bytes

section Written

theorem readHour?_repr (hour : Hour) : readHour? hour.val.repr.toList = some hour := by
  revert hour
  decide

theorem hourlyName?_eventFileName {date : String} (written : IsWrittenDate date) (hour : Hour) :
    hourlyName? .event (eventFileName date hour.val) = some ⟨date, hour⟩ := by
  have htoken : IsWrittenHour hour.val.repr hour := by
    rw [← String.ofList_toList (s := hour.val.repr)]
    exact readHour?_eq_some_iff.mp (readHour?_repr hour)
  exact hourlyName?_eq_some_iff.mpr (.event written htoken)

/-- The reading of names accepts its grammar and nothing else, whatever characters the name has:
each name has at most one date and hour, the cuts that are made in bytes never fail, and the names
that are written for notes are read back. -/
theorem hourlyName?_reads_grammar :
    (∀ kind name parsed, hourlyName? kind name = some parsed ↔ IsHourlyName kind name parsed) ∧
      (∀ kind name parsed parsed', IsHourlyName kind name parsed →
        IsHourlyName kind name parsed' → parsed = parsed') ∧
      (∀ kind name, hourlyNameAtBytes? kind name = .ok (hourlyName? kind name)) ∧
      ∀ date (hour : Hour), IsWrittenDate date →
        hourlyName? .event (eventFileName date hour.val) = some ⟨date, hour⟩ :=
  ⟨fun _ _ _ => hourlyName?_eq_some_iff, fun _ _ _ _ h h' => h.unique h',
    hourlyNameAtBytes?_eq, fun _ hour written => hourlyName?_eventFileName written hour⟩

/-- A drawing whose name begins with a letter of two bytes, and the note of an hour. -/
theorem hourlyName?_reads_grammar_november :
    hourlyName? .image "ü-2022-11-01-04.png" = some ⟨"2022-11-01", 4⟩ ∧
      (∀ parsed, IsHourlyName .image "ü-2022-11-01-04.png" parsed → parsed = ⟨"2022-11-01", 4⟩) ∧
      hourlyNameAtBytes? .image "ü2022-11-01-04.png" = .ok none ∧
      hourlyName? .event "event-2022-11-01-7.txt" = some ⟨"2022-11-01", 7⟩ := by
  obtain ⟨hreads, honly, hcuts, hback⟩ := hourlyName?_reads_grammar
  have hdate : IsWrittenDate "2022-11-01" := by
    rw [← isDayName_iff]
    rfl
  have himage : IsHourlyName .image "ü-2022-11-01-04.png" ⟨"2022-11-01", 4⟩ :=
    @IsHourlyName.image "ü" "2022-11-01" (String.ofList ['0', '4']) 4 (by decide) hdate
      (.two rfl rfl rfl)
  refine ⟨(hreads _ _ _).mpr himage, fun parsed h => honly _ _ _ _ h himage, ?_,
    hback "2022-11-01" 7 hdate⟩
  rw [hcuts]
  rfl

end Written

end Naming

end DrawingDiary
