import TopicMesh.Proofs.Sequence.Places
import TopicMesh.Signal
import TopicMesh.Text.Blank
import TopicMesh.Text.Numeral

/-!
# Reading words and numerals back

A number's decimal digits read back as the number (`natural?_toDigits`), and begin
with a zero only if they are no others (`head?_toDigits_ne`).  Words joined by blanks
are cut apart again (`words_joined`), and whatever is cut out of a text is a word
(`isWord_of_mem_words`).

So the line of a host candidate names its host and port if the host is one word, and
only then (`endpointOf_hostLine_iff`).
-/

namespace TopicMesh

namespace Text

/-! ## Numerals -/

theorem digit?_of_isDigit {c : Char} (h : c.isDigit = true) : digit? c = some (c.toNat - '0'.toNat) := by
  have bounds : '0' ≤ c ∧ c ≤ '9' := by
    simp only [Char.isDigit, ge_iff_le, Bool.and_eq_true, decide_eq_true_eq] at h
    exact h
  exact if_pos bounds

theorem digits?_of_isDigit {cs : List Char} (h : ∀ c ∈ cs, c.isDigit = true) (n : Nat) :
    digits? n cs = some (Nat.ofDigitChars 10 cs n) := by
  induction cs generalizing n with
  | nil => simp [digits?]
  | cons c cs ih =>
    rw [digits?, digit?_of_isDigit (h c List.mem_cons_self), Option.bind_some,
      ih (fun d hd => h d (List.mem_cons_of_mem c hd)), Nat.ofDigitChars_cons, Nat.mul_comm]

theorem isDigit_of_mem_toDigits {n : Nat} {c : Char} (h : c ∈ Nat.toDigits 10 n) :
    c.isDigit = true :=
  Nat.isDigit_of_mem_toDigits (by decide) (by decide) h

theorem natural?_toDigits (n : Nat) : natural? (Nat.toDigits 10 n) = some n := by
  have digits : digits? 0 (Nat.toDigits 10 n) =
      some (Nat.ofDigitChars 10 (Nat.toDigits 10 n) 0) :=
    digits?_of_isDigit (fun c hc => isDigit_of_mem_toDigits hc) 0
  rw [Nat.ofDigitChars_ten_toDigits] at digits
  cases h : Nat.toDigits 10 n with
  | nil => exact absurd h Nat.toDigits_ne_nil
  | cons c cs =>
    rw [h] at digits
    exact digits

/-- The digits of a positive number do not begin with a zero. -/
theorem head?_toDigits_ne {n : Nat} (positive : 0 < n) :
    (Nat.toDigits 10 n).head? ≠ some '0' := by
  induction n using Nat.strongRecOn with
  | ind n ih =>
    by_cases small : n < 10
    · rw [Nat.toDigits_of_lt_base small]
      have digits : ∀ m, m < 10 → 0 < m → [Nat.digitChar m].head? ≠ some '0' := by decide
      exact digits n small positive
    · have front := ih (n / 10) (by omega) (by omega)
      rw [Nat.toDigits_of_base_le (by decide) (by omega), List.head?_append]
      cases h : Nat.toDigits 10 (n / 10) with
      | nil => exact absurd h Nat.toDigits_ne_nil
      | cons c cs =>
        rw [h] at front
        exact front

theorem unsigned?_toDigits (n : Nat) : unsigned? (Nat.toDigits 10 n) = some n := by
  rw [← natural?_toDigits n]
  cases h : Nat.toDigits 10 n with
  | nil => exact absurd h Nat.toDigits_ne_nil
  | cons c cs =>
    have digit : c.isDigit = true := isDigit_of_mem_toDigits (h ▸ List.mem_cons_self)
    have apart : c ≠ '+' := by
      rintro rfl
      exact absurd digit (by decide)
    unfold unsigned?
    split
    · next same => exact absurd (List.cons.inj same).1 apart
    · rfl

theorem toList_toString_port (port : UInt16) : (toString port).toList = Nat.toDigits 10 port.toNat := by
  show port.toNat.repr.toList = _
  exact Nat.toList_repr

theorem port?_toString (port : UInt16) : port? (toString port) = some port := by
  unfold port?
  rw [toList_toString_port, unsigned?_toDigits, Option.bind_some, if_pos port.toNat_lt,
    UInt16.ofNat_toNat]

/-! ## Words -/

/-- Whether a text is one word. -/
structure IsWord (s : String) : Prop where
  nonempty : s ≠ ""
  no_blank : ∀ c ∈ s.toList, isBlank c = false

theorem not_isBlank_of_isDigit {c : Char} (h : c.isDigit = true) : isBlank c = false := by
  simp only [Char.isDigit, ge_iff_le, Bool.and_eq_true, decide_eq_true_eq] at h
  obtain ⟨low, high⟩ := h
  have low : 48 ≤ c.toNat := low
  have high : c.toNat ≤ 57 := high
  unfold isBlank
  simp only [Bool.or_eq_false_iff, Bool.and_eq_false_iff, decide_eq_false_iff_not, beq_eq_false_iff_ne]
  omega

theorem isWord_toString_port (port : UInt16) : IsWord (toString port) := by
  refine ⟨fun empty => ?_, fun c hc => ?_⟩
  · have := congrArg String.toList empty
    rw [toList_toString_port] at this
    exact Nat.toDigits_ne_nil this
  · rw [toList_toString_port] at hc
    exact not_isBlank_of_isDigit (isDigit_of_mem_toDigits hc)

/-- A word, and what follows it after a blank. -/
theorem words_cons {word : String} (h : IsWord word) {text : List Char} {rest : String}
    (is_text : rest.toList = word.toList ++ ' ' :: text) :
    words rest = word :: words (String.ofList text) := by
  have nonempty : word.toList.isEmpty = false := by
    rw [List.isEmpty_eq_false_iff]
    exact fun empty => h.nonempty (String.toList_eq_nil_iff.1 empty)
  unfold words
  rw [is_text, List.splitOnP_append_cons_of_forall_mem h.no_blank ' ' (by decide),
    List.filter_cons_of_pos (by simp [nonempty]), List.map_cons, String.ofList_toList,
    String.toList_ofList]

theorem words_last {word : String} (h : IsWord word) : words word = [word] := by
  have nonempty : word.toList.isEmpty = false := by
    rw [List.isEmpty_eq_false_iff]
    exact fun empty => h.nonempty (String.toList_eq_nil_iff.1 empty)
  unfold words
  rw [List.splitOnP_eq_singleton h.no_blank, List.filter_cons_of_pos (by simp [nonempty])]
  simp

/-- What is cut out of a text is a word. -/
theorem isWord_of_mem_words {word s : String} (cut : word ∈ words s) : IsWord word := by
  obtain ⟨part, is_part, rfl⟩ := List.mem_map.1 cut
  obtain ⟨is_part, nonempty⟩ := List.mem_filter.1 is_part
  refine ⟨?_, ?_⟩
  · rintro empty
    rw [String.ofList_eq_empty_iff.1 empty] at nonempty
    exact absurd nonempty (by decide)
  · rw [String.toList_ofList]
    exact not_of_mem_splitOnP is_part

/-- Words with a blank between each two of them. -/
def joined : List String → List Char
  | [] => []
  | [word] => word.toList
  | word :: rest => word.toList ++ ' ' :: joined rest

theorem words_joined {parts : List String} (h : ∀ word ∈ parts, IsWord word) :
    words (String.ofList (joined parts)) = parts := by
  induction parts with
  | nil => rfl
  | cons word rest ih =>
    have first := h word List.mem_cons_self
    cases rest with
    | nil =>
      rw [joined, String.ofList_toList]
      exact words_last first
    | cons next rest =>
      have others := ih fun w hw => h w (List.mem_cons_of_mem word hw)
      have text : (String.ofList (joined (word :: next :: rest))).toList =
          word.toList ++ ' ' :: joined (next :: rest) := by
        rw [String.toList_ofList]
        rfl
      rw [words_cons first text, others]

end Text

namespace Candidate

open Text

/-- The words of a host candidate's line. -/
def hostWords (host : String) (port : UInt16) : List String :=
  ["candidate:1", "1", "tcp", "2122260223", host, toString port, "typ", "host", "tcptype",
    "passive"]

theorem hostLine_eq (host : String) (port : UInt16) :
    hostLine host port = String.ofList (joined (hostWords host port)) := by
  have front : "candidate:1 1 tcp 2122260223 ".toList =
      "candidate:1".toList ++ ' ' :: ("1".toList ++ ' ' :: ("tcp".toList ++ ' ' ::
        ("2122260223".toList ++ [' ']))) := by decide
  have back : " typ host tcptype passive".toList =
      ' ' :: ("typ".toList ++ ' ' :: ("host".toList ++ ' ' :: ("tcptype".toList ++ ' ' ::
        "passive".toList))) := by decide
  have blank : " ".toList = [' '] := by decide
  have line : hostLine host port =
      "candidate:1 1 tcp 2122260223 " ++ host ++ " " ++ toString port ++
        " typ host tcptype passive" := rfl
  refine String.toList_inj.1 (Eq.trans ?_ String.toList_ofList.symm)
  rw [line, String.toList_append, String.toList_append, String.toList_append,
    String.toList_append, front, back, blank]
  simp only [hostWords, joined, List.append_assoc, List.cons_append, List.nil_append]

theorem isWord_of_mem_hostWords {host : String} (h : IsWord host) (port : UInt16) {word : String}
    (hw : word ∈ hostWords host port) : IsWord word := by
  have fixed : (["candidate:1", "1", "tcp", "2122260223", "typ", "host", "tcptype",
      "passive"].all fun word =>
        !word.toList.isEmpty && word.toList.all fun c => !isBlank c) = true := by decide
  by_cases given : word = host ∨ word = toString port
  · rcases given with rfl | rfl
    · exact h
    · exact isWord_toString_port port
  · rw [not_or] at given
    have plain := List.all_eq_true.1 fixed word (by
      simpa only [hostWords, List.mem_cons, List.not_mem_nil, or_false, given.1, given.2,
        false_or] using hw)
    rw [Bool.and_eq_true, List.all_eq_true] at plain
    refine ⟨?_, fun c hc => by simpa using plain.2 c hc⟩
    rintro rfl
    exact absurd plain.1 (by decide)

/-- **The line of a host candidate names its host and port.** -/
theorem endpointOf_hostLine {host : String} (h : IsWord host) (port : UInt16) :
    endpointOf (hostLine host port) = .ok (host, port) := by
  have cut : words (hostLine host port) = hostWords host port := by
    rw [hostLine_eq]
    exact words_joined fun word hw => isWord_of_mem_hostWords h port hw
  have head : "candidate:".toList.isPrefixOf "candidate:1".toList = true := by decide
  unfold endpointOf
  rw [cut, hostWords]
  simp only [head, and_self, if_true, port?_toString]

/-- The host that a line names is one of its words. -/
theorem mem_words_of_endpointOf {line : String} {place : String × UInt16}
    (names : endpointOf line = .ok place) : place.1 ∈ words line := by
  unfold endpointOf at names
  split at names
  · next cut =>
    split at names
    · split at names
      · cases names
        rw [cut]
        simp
      · cases names
    · cases names
  · cases names

/-- **The line of a host candidate names its host and port just if the host is one word.** -/
theorem endpointOf_hostLine_iff {host : String} {port : UInt16} :
    endpointOf (hostLine host port) = .ok (host, port) ↔ IsWord host :=
  ⟨fun names => isWord_of_mem_words (mem_words_of_endpointOf names),
    fun word => endpointOf_hostLine word port⟩

end Candidate

end TopicMesh
