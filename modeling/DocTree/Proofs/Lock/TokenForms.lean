import DocTree.Lock.Token
import DocTree.Proofs.Json.Reading
import DocTree.Proofs.Lock.TimeoutForms
import DocTree.Proofs.Path.Algebra

/-!
# Written lock tokens

A timeout that was written is read again, even if its letters have been changed from capitals to
small ones or back and blank characters have been put around it. A token that was written is read
again with all its parts: its texts, the path, which is validated once more, the timeout and the
deadline, which goes through seconds and nanoseconds and must not come out after the latest instant.
Neither the layout nor the order of the members of a record matters for this. Deadlines are written
as times since the epoch, so that a token with an earlier one has no written form.

## Main definitions

* `LockToken.toJsonBy`: a token as a record whose members are arranged in some way.
* `LockToken.IsWritable`: the deadline of a token is not before the epoch.

## Main results

* `Timeout.understood_of_lower`: what can be done to a written timeout.
* `Json.isNumber_writeDigits`: the digits of a number are the literal of a number.
* `Json.fields?_object_perm`: the order of the members of an object does not matter.
* `LockToken.isSome_write?_iff`: which tokens can be written.
* `LockToken.instantOfJson?_object` and `LockToken.ofJson?_toJsonBy`: a record is read as what it
  was written for.
* `LockToken.read?_written`: timeouts and tokens that were written are read again.
-/

namespace DocTree

open Text

/-! ### Timeouts -/

namespace Timeout

variable {timeout : Timeout} {word : List Char}

theorem isDigit_iff_toNat {c : Char} : c.isDigit ↔ 48 ≤ c.toNat ∧ c.toNat ≤ 57 := by
  simp [Char.isDigit, UInt32.le_iff_toNat_le]

theorem isDigit_of_mem_writeDigits {n : Nat} : ∀ c ∈ writeDigits n, c.isDigit :=
  fun _ hc => Nat.isDigit_of_mem_toDigits (by decide) (by decide) hc

/-- A digit is no letter, so nothing else becomes a digit in lower case. -/
theorem eq_of_lower_eq_digits {digits : List Char} (hdigits : ∀ c ∈ digits, c.isDigit)
    (h : lower word = digits) : word = digits := by
  subst h
  rw [lower, List.forall_mem_map] at hdigits
  refine (List.map_id' _).symm.trans (List.map_congr_left fun c hc => ?_)
  have hlower := isDigit_iff_toNat.1 (hdigits c hc)
  rw [← Char.toNat_inj]
  rw [toNat_toLower] at hlower ⊢
  split at hlower <;> split <;> omega

theorem isBlank_of_isDigit {c : Char} (h : c.isDigit) : isBlank c = false := by
  rw [isDigit_iff_toNat] at h
  rw [← Bool.not_eq_true]
  simp only [isBlank, blankRanges, List.any_cons, List.any_nil, Bool.or_eq_true, Bool.and_eq_true,
    decide_eq_true_eq, Bool.or_false]
  omega

/-- A blank character is no capital. -/
theorem toLower_of_isBlank {c : Char} (h : isBlank c) : c.toLower = c := by
  rw [← Char.toNat_inj, toNat_toLower, if_neg]
  simp only [isBlank, blankRanges, List.any_cons, List.any_nil, Bool.or_eq_true, Bool.and_eq_true,
    decide_eq_true_eq, Bool.or_false] at h
  omega

theorem lower_text_infinite : lower infinite.text.toList = infiniteWord := by
  decide

theorem lower_text_seconds (count : UInt64) :
    lower (seconds count).text.toList = secondsWord ++ writeDigits count.toNat := by
  have hdigits : lower (writeDigits count.toNat) = writeDigits count.toNat := by
    refine (List.map_congr_left fun c hc => ?_).trans (List.map_id' _)
    have hdigit := isDigit_iff_toNat.1 (isDigit_of_mem_writeDigits c hc)
    rw [← Char.toNat_inj, toNat_toLower, if_neg (by omega)]
  have hsplit : (seconds count).text.toList = "Second-".toList ++ writeDigits count.toNat := by
    rw [text, String.toList_append]
    exact congrArg _ String.toList_ofList
  rw [hsplit, lower, List.map_append, ← lower, ← lower, hdigits]
  rfl

/-- What is left of a written timeout in other letters is one of the forms that are read. -/
theorem isForm_of_lower (hword : lower word = lower timeout.text.toList) : IsForm timeout word := by
  cases timeout with
  | infinite => exact isForm_infinite_iff.2 (hword.trans lower_text_infinite)
  | seconds count =>
    rw [lower_text_seconds] at hword
    have hfront : lower (word.take secondsWord.length) = secondsWord := by
      rw [lower, List.map_take, ← lower, hword, List.take_left]
    have hback : lower (word.drop secondsWord.length) = writeDigits count.toNat := by
      rw [lower, List.map_drop, ← lower, hword, List.drop_left]
    have hnumber : DenotesSeconds (writeDigits count.toNat) count := by
      rw [denotesSeconds_iff, readDigits?_writeDigits]
      simp [count.toNat_lt]
    rw [isForm_seconds_iff, eq_of_lower_eq_digits isDigit_of_mem_writeDigits hback]
    exact ⟨hfront, readSeconds?_eq_some_iff.2 (.inl hnumber)⟩

/-- There are no blank characters in a written timeout, whatever its letters are. -/
theorem isBlank_of_lower (hword : lower word = lower timeout.text.toList) :
    ∀ c ∈ word, isBlank c = false := by
  have htext : ∀ c ∈ lower timeout.text.toList, isBlank c = false := by
    cases timeout with
    | infinite =>
      rw [lower_text_infinite]
      simp [infiniteWord, isBlank, blankRanges]
    | seconds count =>
      rw [lower_text_seconds, List.forall_mem_append]
      refine ⟨by simp [secondsWord, isBlank, blankRanges], fun c hc => ?_⟩
      exact isBlank_of_isDigit (isDigit_of_mem_writeDigits c hc)
  intro c hc
  by_contra hblank
  rw [Bool.not_eq_false] at hblank
  -- A blank character would be found in the timeout as it was written.
  have hmem : c.toLower ∈ lower word := List.mem_map_of_mem hc
  rw [toLower_of_isBlank hblank, hword] at hmem
  rw [htext c hmem] at hblank
  cases hblank

/-- A timeout that was written is understood in any letters and between any blank characters. -/
theorem understood_of_lower (hword : lower word = lower timeout.text.toList)
    {front back : List Char} (hfront : ∀ c ∈ front, isBlank c) (hback : ∀ c ∈ back, isBlank c) :
    Understood timeout (front ++ word ++ back) := by
  have hfree := isBlank_of_lower hword
  exact ⟨word, ⟨⟨front, back, rfl, hfront, hback⟩, fun c hc => hfree c (List.mem_of_head? hc),
    fun c hc => hfree c (List.mem_of_getLast? hc)⟩, isForm_of_lower hword⟩

end Timeout

/-! ### Numbers in JSON -/

namespace Json

/-- A number other than zero does not begin with a zero. -/
theorem head?_writeDigits {n : Nat} (h : n ≠ 0) : ∀ c ∈ (writeDigits n).head?, c ≠ '0' := by
  induction n using Nat.strong_induction_on with
  | _ n ih =>
    rw [writeDigits]
    by_cases hlt : n < 10
    · have hdigit : ∀ m < 10, m ≠ 0 → Nat.digitChar m ≠ '0' := by decide
      rw [Nat.toDigits_of_lt_base hlt]
      simpa using hdigit n hlt h
    · -- The first digit is that of the tenth part.
      obtain ⟨first, rest, hfront⟩ := List.exists_cons_of_ne_nil
        (Nat.toDigits_ne_nil (n := n / 10) (b := 10))
      have htenth := ih (n / 10) (by omega) (by omega)
      rw [writeDigits, hfront] at htenth
      rw [Nat.toDigits_of_base_le (by decide) (Nat.le_of_not_lt hlt), hfront]
      exact htenth

/-- The digits of a number are the literal of a number. -/
theorem isNumber_writeDigits (n : Nat) : isNumber (writeDigits n) = true := by
  have hdigits : ∀ c ∈ writeDigits n, c.isDigit := Timeout.isDigit_of_mem_writeDigits
  have hinteger : isIntegerPart (writeDigits n) = true := by
    by_cases hzero : n = 0
    · subst hzero
      rfl
    · obtain ⟨first, rest, hcons⟩ : ∃ first rest, writeDigits n = first :: rest :=
        List.exists_cons_of_ne_nil Nat.toDigits_ne_nil
      have hfirst := head?_writeDigits hzero
      rw [hcons] at hfirst ⊢
      have hne : first ≠ '0' := hfirst first rfl
      simp [isIntegerPart, hne]
  have hunsigned : ∀ rest, writeDigits n ≠ '-' :: rest := by
    intro rest heq
    exact absurd (hdigits '-' (by simp [heq])) (by decide)
  unfold isNumber
  dsimp only
  split
  next rest heq => exact absurd heq (hunsigned rest)
  next =>
    rw [List.takeWhile_eq_self_iff.2 hdigits, List.dropWhile_eq_nil_iff.2 hdigits, hinteger]
    rfl

theorem word64?_ofNat {n : Nat} (h : n < UInt64.size) : (ofNat n).word64? = some n := by
  simp [ofNat, word64?, h]

/-! ### The order of members -/

theorem uniqueMember?_perm {name : String} {members others : Members} (h : members.Perm others) :
    uniqueMember? name members = uniqueMember? name others := by
  have hfound := h.filter fun member => member.1 = some name
  unfold uniqueMember?
  generalize members.filter _ = found at hfound ⊢
  generalize others.filter _ = again at hfound ⊢
  -- The values that are found are the same if there is at most one of them.
  match found, again, hfound with
  | [], again, hfound => rw [hfound.nil_eq]
  | [member], again, hfound => rw [hfound.singleton_eq]
  | _ :: _ :: _, [], hfound => exact absurd hfound.eq_nil (by simp)
  | _ :: _ :: _, [_], hfound => exact absurd hfound.eq_singleton (by simp)
  | _ :: _ :: _, _ :: _ :: _, _ => rfl

/-- The order of the members of an object does not matter. -/
theorem fields?_object_perm {names : List String} {lenient : Bool} {members others : Members}
    (h : members.Perm others) :
    (object members).fields? names lenient = (object others).fields? names lenient := by
  rw [fields?, fields?, h.all_eq]
  congr 2
  exact funext fun name => uniqueMember?_perm h

theorem areProperMembers_eq_all (members : Members) :
    areProperMembers members = members.all fun member => member.2.isProper := by
  induction members with
  | nil => rfl
  | cons member rest ih => rw [areProperMembers, ih, List.all_cons]

end Json

/-! ### Tokens -/

namespace LockToken

variable {arrange : Json.Members → Json.Members}

/-- The members of an instant. -/
def instantMembers (t : Instant) : Json.Members :=
  [(some "secs_since_epoch", .ofNat t.sinceEpoch.seconds),
    (some "nanos_since_epoch", .ofNat t.sinceEpoch.subsecNanos)]

/-- The members of a token, with a deadline in some form. -/
def membersWith (token : LockToken) (deadline : Option Json) : Json.Members :=
  [(some "tokenId", .ofText token.id), (some "owner", .ofText token.owner.name),
    (some "documentPath", .ofText token.path.text), (some "scope", .ofText scope),
    (some "timeout", .ofText token.timeout.text)]
  ++ (deadline.map fun value => (some "deadline", value)).toList

/-- A token as a record. The members of the record, and those of the deadline in it, are arranged
in some way. -/
def toJsonBy (arrange : Json.Members → Json.Members) (token : LockToken) : Json :=
  .object (arrange (token.membersWith
    (token.deadline.map fun t => .object (arrange (instantMembers t)))))

/-- The deadline is not before the epoch, if there is one. -/
def IsWritable (token : LockToken) : Prop :=
  ∀ t, token.deadline = some t → Instant.epoch.nanos ≤ t.nanos

/-- A token that can be written is written as a record with its members in order. -/
theorem toJson?_eq {token : LockToken} (h : token.IsWritable) :
    token.toJson? = some (token.toJsonBy fun members => members) := by
  unfold toJson? toJsonBy membersWith
  cases hdeadline : token.deadline with
  | none => rfl
  | some t =>
    have hsince : t.sinceEpoch? = some t.sinceEpoch := if_pos (h t hdeadline)
    rw [deadlineToJson?, instantToJson?, hsince]
    rfl

/-- A token can be written exactly if its deadline is not before the epoch. -/
theorem isSome_write?_iff {token : LockToken} : token.write?.isSome ↔ token.IsWritable := by
  refine ⟨fun hsome t hdeadline => ?_, fun h => ?_⟩
  · by_contra hbefore
    have hnone : t.sinceEpoch? = none := if_neg hbefore
    rw [write?, toJson?, hdeadline, deadlineToJson?, instantToJson?, hnone] at hsome
    cases hsome
  · rw [write?, toJson?_eq h]
    rfl

/-- Two numbers are read as that many seconds and nanoseconds after the epoch. -/
theorem instantOfJson?_of_fields {json first second : Json} {seconds nanos : Nat}
    (hfields : json.fields? instantFieldNames false = some [some first, some second])
    (hseconds : first.word64? = some seconds) (hnanos : second.word64? = some nanos)
    (hwritten : nanos ≤ maxWrittenNanos) :
    instantOfJson? json = Instant.epoch.add? (.ofParts seconds nanos) := by
  unfold instantOfJson?
  rw [hfields]
  simp only [Option.bind_eq_bind, Option.bind_some, hseconds, hnanos]
  exact if_pos hwritten

/-- An instant is read as what it was written for, from the epoch to the latest one. -/
theorem instantOfJson?_object {t : Instant} (hepoch : Instant.epoch.nanos ≤ t.nanos)
    {members : Json.Members} (h : members.Perm (instantMembers t)) :
    instantOfJson? (.object members) = some t := by
  have hadd := Instant.add?_sinceEpoch hepoch
  have hlatest : t.sinceEpoch.nanos ≤ latestNanos :=
    Nat.le_trans (Nat.sub_le t.nanos Instant.epoch.nanos) t.le_latest
  -- From here on it does not matter where the amount of time comes from.
  unfold instantMembers at h
  generalize t.sinceEpoch = amount at h hadd hlatest
  have hfields : (Json.object members).fields? instantFieldNames false =
      some [some (.ofNat amount.seconds), some (.ofNat amount.subsecNanos)] := by
    rw [Json.fields?_object_perm h]
    rfl
  -- There are fewer than 2 ^ 64 seconds, and fewer nanoseconds beyond them than a second has.
  have hseconds : (Json.ofNat amount.seconds).word64? = some amount.seconds := by
    refine Json.word64?_ofNat ?_
    rw [Duration.seconds, Nat.div_lt_iff_lt_mul (by decide)]
    exact Nat.lt_of_le_of_lt hlatest (by decide)
  have hsubsec : amount.subsecNanos < Duration.nanosPerSecond := Nat.mod_lt _ (by decide)
  have hnanos : (Json.ofNat amount.subsecNanos).word64? = some amount.subsecNanos :=
    Json.word64?_ofNat (Nat.lt_trans hsubsec (by decide))
  have hwritten : amount.subsecNanos ≤ maxWrittenNanos :=
    Nat.le_of_lt (Nat.lt_trans hsubsec (by decide))
  have hsum : Duration.ofParts amount.seconds amount.subsecNanos = amount :=
    congrArg Duration.mk (Nat.div_add_mod' amount.nanos Duration.nanosPerSecond)
  rw [instantOfJson?_of_fields hfields hseconds hnanos hwritten, hsum, hadd]

/-- A token is read as what it was written for. -/
theorem ofJson?_toJsonBy (harrange : ∀ members, (arrange members).Perm members)
    {token : LockToken} (h : token.IsWritable) :
    ofJson? (token.toJsonBy arrange) = some token := by
  have hdeadline : deadlineOfJson? (token.deadline.map fun t =>
      .object (arrange (instantMembers t))) = some token.deadline := by
    cases htoken : token.deadline with
    | none => rfl
    | some t =>
      exact congrArg (Option.map some) (instantOfJson?_object (h t htoken) (harrange _))
  rw [toJsonBy]
  generalize (token.deadline.map fun t => Json.object (arrange (instantMembers t))) = deadline
    at hdeadline ⊢
  have hfields : (Json.object (arrange (token.membersWith deadline))).fields? fieldNames true =
      some [some (.ofText token.id), some (.ofText token.owner.name),
        some (.ofText token.path.text), some (.ofText scope), some (.ofText token.timeout.text),
        deadline] := by
    rw [Json.fields?_object_perm (harrange _)]
    cases deadline <;> rfl
  have hpath : Path.parse token.path.text.toList = .ok token.path := by
    rw [Path.text, String.toList_ofList, Path.parse_chars]
  have htimeout : Timeout.read? token.timeout.text.toList = some token.timeout := by
    have hunderstood : Timeout.Understood token.timeout ([] ++ token.timeout.text.toList ++ []) :=
      Timeout.understood_of_lower rfl nofun nofun
    simpa using Timeout.read?_eq_some_iff.2 hunderstood
  unfold ofJson?
  rw [hfields]
  simp only [Option.bind_eq_bind, Option.bind_some, Json.text?, Json.ofText, Json.choice?, hpath,
    htimeout, hdeadline]
  rfl

theorem isProper_toJsonBy (harrange : ∀ members, (arrange members).Perm members)
    (token : LockToken) : (token.toJsonBy arrange).isProper = true := by
  have hinstant : ∀ t, (Json.object (arrange (instantMembers t))).isProper = true := by
    intro t
    rw [Json.isProper, Json.areProperMembers_eq_all, (harrange _).all_eq]
    simp [instantMembers, Json.ofNat, Json.isProper, Json.isNumber_writeDigits]
  rw [toJsonBy, Json.isProper, Json.areProperMembers_eq_all, (harrange _).all_eq]
  cases token.deadline with
  | none => rfl
  | some t =>
    rw [Option.map_some, membersWith, List.all_append, Bool.and_eq_true]
    exact ⟨rfl, List.all_eq_true.2 (by simpa using hinstant t)⟩

/-- A token that was written with its members arranged in some way is read again, whatever the
layout. -/
theorem read?_write_toJsonBy (harrange : ∀ members, (arrange members).Perm members)
    {layout : Json.Layout} (hblank : layout.IsBlank) {token : LockToken} (h : token.IsWritable) :
    read? (String.ofList ((token.toJsonBy arrange).write layout)) = some token := by
  rw [read?, String.toList_ofList, Json.read?_write hblank (isProper_toJsonBy harrange token)]
  exact ofJson?_toJsonBy harrange h

/-- Timeouts and tokens that were written are read again: a timeout in any letters and between any
blank characters, and a token in any layout, with its members and those of its deadline arranged in
any way. Every token can be written whose deadline is not before the epoch. -/
theorem read?_written :
    (∀ (timeout : Timeout) (front word back : List Char),
      lower word = lower timeout.text.toList → (∀ c ∈ front, isBlank c) →
      (∀ c ∈ back, isBlank c) →
      Timeout.ofText (String.ofList (front ++ word ++ back)) = .ok timeout) ∧
    ∀ token : LockToken, (∀ t, token.deadline = some t → Instant.epoch.nanos ≤ t.nanos) →
      token.write? = some token.write ∧ read? token.write = some token ∧
      ∀ (arrange : Json.Members → Json.Members) (layout : Json.Layout),
        (∀ members, (arrange members).Perm members) → layout.IsBlank →
        read? (String.ofList ((token.toJsonBy arrange).write layout)) = some token := by
  refine ⟨fun timeout front word back hword hfront hback => ?_, fun token h => ?_⟩
  · rw [Timeout.ofText_eq_ok_iff, String.toList_ofList]
    exact Timeout.understood_of_lower hword hfront hback
  · have hwritten : token.write? =
        some (String.ofList ((token.toJsonBy fun members => members).write .compact)) := by
      rw [write?, toJson?_eq h, Option.map_some]
    rw [write, hwritten, Option.getD_some]
    exact ⟨rfl, read?_write_toJsonBy (fun _ => .rfl) Json.Layout.isBlank_compact h,
      fun arrange layout harrange hblank => read?_write_toJsonBy harrange hblank h⟩

/-- A lock for as long as can be asked for, until the latest instant. -/
def lasting : LockToken where
  id := "opaquelocktoken:\"\u00e9\"\n"
  owner := ⟨"al\\ice"⟩
  path := .root
  timeout := .seconds 18446744073709551615
  deadline := some .latest

/-- The timeout of this lock in mixed letters. -/
def lastingWord : List Char :=
  "sEcOnD-18446744073709551615".toList

/-- Its timeout is read in mixed letters between wide blanks, and it is read itself from an indented
record that is written from back to front. -/
theorem read?_written_lasting :
    lower lastingWord = lower lasting.timeout.text.toList ∧
      isBlank '\u3000' ∧ isBlank '\u2028' ∧
      Timeout.ofText (String.ofList (['\u3000'] ++ lastingWord ++ ['\u2028', '\u3000'])) =
        .ok lasting.timeout ∧
      Instant.epoch.nanos ≤ Instant.latest.nanos ∧ Json.Layout.indented.IsBlank ∧
      read? (String.ofList ((lasting.toJsonBy List.reverse).write .indented)) = some lasting := by
  obtain ⟨htimeout, htoken⟩ := read?_written
  have hword : lower lastingWord = lower lasting.timeout.text.toList := by decide +kernel
  have hwide : isBlank '\u3000' := by decide
  have hline : isBlank '\u2028' := by decide
  have hback : ∀ c ∈ ['\u2028', '\u3000'], isBlank c := by
    simp [hline, hwide]
  have hepoch : Instant.epoch.nanos ≤ Instant.latest.nanos := by decide
  have hdeadline : ∀ t, lasting.deadline = some t → Instant.epoch.nanos ≤ t.nanos := by
    rintro t ⟨⟩
    exact hepoch
  obtain ⟨-, -, hread⟩ := htoken lasting hdeadline
  exact ⟨hword, hwide, hline, htimeout _ _ _ _ hword (by simp [hwide]) hback, hepoch,
    Json.Layout.isBlank_indented,
    hread _ _ List.reverse_perm Json.Layout.isBlank_indented⟩

end LockToken

end DocTree
