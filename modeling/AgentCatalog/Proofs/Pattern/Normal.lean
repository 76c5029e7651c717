import AgentCatalog.Proofs.Pattern.Language
import AgentCatalog.Proofs.Pattern.Segments
import AgentCatalog.Proofs.Text.Lowered

/-!
# Normal forms of patterns

The normal form of a pattern is folded and collapsed. Collapsing changes neither the language of a
pattern nor which characters it has, so the normal form still tells the patterns apart that are
treated in a special way:

* `matches_collapse_iff`: a pattern and the collapsed one have the same language;
* `foldCase_normalize`: the normal form is in lower case;
* `normalize_normalize`: the normal form is its own normal form;
* `normalize_eq_nil_iff`: only the empty pattern has the empty normal form;
* `normalize_eq_star_iff`: the patterns made of `*` only are those of the lone `*`.
-/

namespace AgentCatalog.Pattern

/-! ### Collapsing -/

lemma matches_cons_congr {p q : List Char} (h : ∀ s, Matches p s ↔ Matches q s) (c : Char)
    (s : List Char) : Matches (c :: p) s ↔ Matches (c :: q) s := by
  rw [← List.singleton_append, ← List.singleton_append (l := q), matches_append_iff,
    matches_append_iff]
  simp only [h]

lemma matches_star_star_iff {p s : List Char} :
    Matches ('*' :: '*' :: p) s ↔ Matches ('*' :: p) s := by
  constructor
  · intro h
    obtain ⟨a, b, rfl, hb⟩ := matches_star_cons_iff.1 h
    exact matches_star_cons_of_suffix hb ⟨a, rfl⟩
  · exact fun h => .run [] h

theorem matches_collapse_iff {p s : List Char} : Matches (collapse p) s ↔ Matches p s := by
  induction p generalizing s with
  | nil => rfl
  | cons c p ih =>
    rw [collapse]
    split
    · next h =>
      obtain ⟨rfl, hhead⟩ := h
      obtain ⟨q, rfl⟩ := List.head?_eq_some_iff.1 hhead
      rw [ih, matches_star_star_iff]
    · exact matches_cons_congr (fun s => ih) c s

lemma mem_collapse_iff {p : List Char} {d : Char} : d ∈ collapse p ↔ d ∈ p := by
  induction p with
  | nil => rfl
  | cons c p ih =>
    rw [collapse]
    split
    · next h =>
      have hmem : c ∈ p := h.1 ▸ List.mem_of_mem_head? h.2
      rw [ih, List.mem_cons]
      exact ⟨.inr, fun hd => hd.elim (fun heq => heq ▸ hmem) id⟩
    · rw [List.mem_cons, List.mem_cons, ih]

lemma collapse_eq_self {p : List Char} (h : Collapsed p) : collapse p = p := by
  induction p with
  | nil => rfl
  | cons c p ih =>
    have hhead : ¬(c = '*' ∧ p.head? = some '*') := by
      rintro ⟨hc, hp⟩
      obtain ⟨q, rfl⟩ := List.head?_eq_some_iff.1 hp
      exact (List.isChain_cons_cons.1 h).1 ⟨hc, rfl⟩
    rw [collapse, if_neg hhead, ih (List.IsChain.of_cons h)]

/-- Any number of `*` is collapsed to one. -/
lemma collapse_eq_star_iff {p : List Char} : collapse p = ['*'] ↔ p ≠ [] ∧ ∀ c ∈ p, c = '*' := by
  constructor
  · intro h
    refine ⟨fun hnil => ?_, fun c hc => ?_⟩
    · rw [hnil] at h
      cases h
    · rw [← mem_collapse_iff, h] at hc
      exact List.mem_singleton.1 hc
  · rintro ⟨hne, hstars⟩
    have hall : ∀ c ∈ collapse p, c = '*' := fun c hc => hstars c (mem_collapse_iff.1 hc)
    refine (eq_nil_or_eq_star_of_collapsed (collapsed_collapse p) hall).resolve_left ?_
    rwa [collapse_eq_nil_iff]

/-! ### Normal forms -/

lemma normalize_eq_nil_iff {raw : List Char} : normalize raw = [] ↔ raw = [] := by
  rw [normalize, collapse_eq_nil_iff, Text.foldCase_eq_nil_iff]

lemma normalize_eq_star_iff {raw : List Char} :
    normalize raw = ['*'] ↔ raw ≠ [] ∧ ∀ c ∈ raw, c = '*' := by
  rw [normalize, collapse_eq_star_iff, Ne, Text.foldCase_eq_nil_iff,
    Text.forall_foldCase_eq_star_iff]

lemma foldCase_normalize (raw : List Char) : Text.foldCase (normalize raw) = normalize raw :=
  Text.foldCase_eq_self fun _ hc => Text.lowerChar_eq_self_of_mem_foldCase (mem_collapse_iff.1 hc)

theorem normalize_normalize (raw : List Char) : normalize (normalize raw) = normalize raw := by
  rw [normalize, foldCase_normalize]
  exact collapse_eq_self (collapsed_collapse _)

/-- Characters before `a`, such as `?`, are in the normal form only if they are in the pattern. -/
lemma mem_of_mem_normalize {raw : List Char} {d : Char} (hpos : 0 < d.toNat)
    (hlt : d.toNat < 0x61) (h : d ∈ normalize raw) : d ∈ raw :=
  Text.mem_of_mem_foldCase hpos hlt (mem_collapse_iff.1 h)

/-- The normal form of a pattern. -/
def normalForm (raw : String) : String :=
  String.ofList (normalize raw.toList)

@[simp] lemma toList_normalForm (raw : String) :
    (normalForm raw).toList = normalize raw.toList :=
  String.toList_ofList

lemma normalForm_eq_empty_iff {raw : String} : normalForm raw = "" ↔ raw = "" := by
  rw [← String.toList_eq_nil_iff, toList_normalForm, normalize_eq_nil_iff,
    String.toList_eq_nil_iff]

lemma collapsed_normalForm (raw : String) : Collapsed (normalForm raw).toList := by
  rw [toList_normalForm]
  exact collapsed_collapse _

lemma foldCase_normalForm (raw : String) :
    Text.foldCase (normalForm raw).toList = (normalForm raw).toList := by
  rw [toList_normalForm, foldCase_normalize]

lemma any_notMem_normalForm {raw : String} (h : '?' ∉ raw.toList) :
    '?' ∉ (normalForm raw).toList := by
  rw [toList_normalForm]
  exact fun hmem => h (mem_of_mem_normalize (by decide) (by decide) hmem)

end AgentCatalog.Pattern
