import AgentCatalog.CommandLine.Run
import AgentCatalog.Proofs.Text.Decoding
import AgentCatalog.Proofs.Text.Trimming

/-!
# User agents as lines

Texts without a line feed, each written with a line feed behind it, are the lines of what is
written, one by one, and what is read from each line is the text without the white space at its end:

* `agentsOfLines_inputOf`: texts without line feeds;
* `agentsOfLines_inputOf_of_fitsLine`: user agents that no reading changes.
-/

namespace AgentCatalog.CommandLine

open Utf8 (encode)

/-- The user agent is read back from a line of its own: it has no line feed and no white space at
its end. -/
structure FitsLine (agent : String) : Prop where
  feed_notMem : '\n' ∉ agent.toList
  last : ∀ c ∈ agent.toList.getLast?, Text.isBlankChar c = false

instance (agent : String) : Decidable (FitsLine agent) :=
  decidable_of_iff
    ('\n' ∉ agent.toList ∧ agent.toList.getLast?.all (!Text.isBlankChar ·) = true)
    ⟨fun h => ⟨h.1, by simpa [Option.all_eq_true] using h.2⟩,
      fun h => ⟨h.1, by simpa [Option.all_eq_true] using h.2⟩⟩

/-- The input that has each user agent with a line feed behind it. -/
def inputOf (agents : List String) : List UInt8 :=
  agents.flatMap fun agent => encode agent.toList ++ [0x0A]

lemma inputOf_cons (agent : String) (agents : List String) :
    inputOf (agent :: agents) = encode agent.toList ++ 0x0A :: inputOf agents := by
  rw [inputOf, List.flatMap_cons, List.append_assoc, List.singleton_append, inputOf]

/-- A line ends at the first line feed, and the other lines stand behind that. -/
lemma splitLines_append {line : List UInt8} (h : 0x0A ∉ line) (rest : List UInt8) :
    splitLines (line ++ 0x0A :: rest) = line :: splitLines rest := by
  induction line with
  | nil => exact if_pos rfl
  | cons b line ih =>
    rw [List.mem_cons, not_or] at h
    rw [List.cons_append, splitLines, if_neg (Ne.symm h.1), ih h.2]

lemma feed_notMem_encode {text : List Char} (h : '\n' ∉ text) : 0x0A ∉ encode text := by
  intro hfeed
  obtain ⟨c, hc, hbyte⟩ := List.mem_flatMap.1 hfeed
  obtain rfl := (Utf8.mem_encodeChar_iff (d := '\n') rfl).1 hbyte
  exact h hc

lemma agentOfLine_encode (text : List Char) :
    agentOfLine (encode text) = .ok (String.ofList (Text.trimEnd text)) := by
  rw [agentOfLine, Utf8.decode_encode]

/-- The input is read as the user agents without the white space at their ends. -/
theorem agentsOfLines_inputOf {agents : List String} (h : ∀ agent ∈ agents, '\n' ∉ agent.toList) :
    agentsOfLines (splitLines (inputOf agents)) =
      (agents.map fun agent => String.ofList (Text.trimEnd agent.toList), none) := by
  induction agents with
  | nil => rfl
  | cons agent agents ih =>
    rw [List.forall_mem_cons] at h
    rw [inputOf_cons, splitLines_append (feed_notMem_encode h.1), agentsOfLines,
      agentOfLine_encode, ih h.2]
    rfl

theorem agentsOfLines_inputOf_of_fitsLine {agents : List String}
    (h : ∀ agent ∈ agents, FitsLine agent) :
    agentsOfLines (splitLines (inputOf agents)) = (agents, none) := by
  have hself : ∀ agent ∈ agents, String.ofList (Text.trimEnd agent.toList) = agent := by
    intro agent hagent
    rw [Text.trimEnd_eq_self (h agent hagent).last, String.ofList_toList]
  rw [agentsOfLines_inputOf fun agent hagent => (h agent hagent).feed_notMem,
    List.map_congr_left hself, List.map_id']

end AgentCatalog.CommandLine
