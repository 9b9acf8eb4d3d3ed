import SeedChain.Proofs.Context
/-!
# The choice of placeholders

Two codecs that avoid a text and have placeholders for the same characters find the same expressions
in it, at the same places of the text: an expression that stands somewhere under the one codec stands
there under the other one (`Interchange.stands`), and the order of two expressions can be told from
the text itself, whatever the lengths of the placeholders are.

Main result: of the codec made for a text and one made for a longer text it cannot be told which of
them has been used (`findAll_same`).
-/

namespace SeedChain.EscapeCodec

variable {codec codec' : EscapeCodec} {t m : Text} {e : Expression}

namespace Interchange

theorem of_subset (h : Interchange codec codec' t) (hm : m ⊆ t) : Interchange codec codec' m where
  avoids := h.avoids.of_subset hm
  avoids' := h.avoids'.of_subset hm
  delimiter := h.delimiter
  delimiter_public := h.delimiter_public
  escapable := h.escapable

/-- Where the one codec finds an expression, the other one finds the same. -/
theorem stands {before after : Text} (h : Interchange codec codec' t)
    (he : codec.Stands t e before after) :
    ∃ f ∈ codec'.findAll (codec'.encode t),
      codec'.Stands t f before after ∧ ∀ s, f.placed s = e.placed s := by
  have hparts : before ⊆ t ∧ e.matched ⊆ t ∧ after ⊆ t := by
    rw [he.text_eq]
    exact ⟨fun c hc => by simp [hc], fun c hc => by simp [hc], fun c hc => by simp [hc]⟩
  obtain ⟨hbefore, hmatched, hafter⟩ := hparts
  have hm : Interchange codec codec' e.matched := h.of_subset hmatched
  obtain ⟨r, hr, heq⟩ := he.read
  have hrecognised : codec.Recognises e.matched (e.placed (Span.behind [] e.matched)) :=
    ⟨r, hr, congrArg (·.placed (Span.behind [] e.matched)) heq⟩
  obtain ⟨r', hr', heq'⟩ := hm.recognises hrecognised
  -- exchanging placeholders keeps the cuts
  have hencode : codec'.encode t =
      codec'.encode before ++ codec'.encode e.matched ++ codec'.encode after := by
    rw [h.encode_map (List.Subset.refl t), he.encode_eq, List.map_append, List.map_append,
      ← h.encode_map hbefore, ← h.encode_map hmatched, ← h.encode_map hafter]
  refine ⟨_, mem_findAll.2 ⟨_, _, _, r', hencode, hr', rfl⟩,
    stands_of_cuts hm.avoids' he.text_eq hencode hr', fun s => ?_⟩
  exact (congrArg (·.placed s) heq').symm

theorem mem_findPlaced (h : Interchange codec codec' t) (he : e ∈ codec.findPlaced t) :
    e ∈ codec'.findPlaced t := by
  obtain ⟨e, hfound, rfl⟩ := List.mem_map.1 he
  obtain ⟨before, after, hstands⟩ := exists_stands h.avoids hfound
  obtain ⟨f, hf, hfstands, hsame⟩ := h.stands hstands
  have hmatched : f.matched = e.matched := by
    simpa [Expression.placed] using congrArg Expression.matched (hsame e.span)
  refine List.mem_map.2 ⟨f, hf, ?_⟩
  rw [hfstands.spanIn_eq h.avoids', hstands.spanIn_eq h.avoids, hmatched, hsame]

/-- Both codecs find the same expressions at the same places of the text. -/
theorem findPlaced_eq (h : Interchange codec codec' t) : codec.findPlaced t = codec'.findPlaced t :=
  -- lists in strict order are the same if they have the same members
  h.avoids.findPlaced_pairwise.eq_of_mem_iff h.avoids'.findPlaced_pairwise fun _ =>
    ⟨h.mem_findPlaced, h.symm.mem_findPlaced⟩

end Interchange

/-- Whether placeholders are chosen for a text alone or together with another one cannot be seen: as
many expressions are found, in the same order, each with the same keyword, seed, calls and text, and
at the same place of the text. -/
theorem findAll_same {delimiter : Char} (hd : isPrivateUse delimiter = false) {t u : Text}
    (hfree : LeavesFree 5 (t ++ u)) :
    let own := avoiding delimiter t
    let other := avoiding delimiter (t ++ u)
    List.Forall₂ (fun e f => e.keyword = f.keyword ∧ e.seed = f.seed ∧
        e.invocations = f.invocations ∧ e.matched = f.matched ∧
        own.spanIn (own.encode t) e = other.spanIn (other.encode t) f)
      (own.findAll (own.encode t)) (other.findAll (other.encode t)) := by
  intro own other
  have hinterchange : Interchange other own t :=
    interchange_of_subset hd hfree (List.subset_append_left t u)
  have hsame : List.Forall₂ (· = ·) (own.findPlaced t) (other.findPlaced t) := by
    rw [hinterchange.findPlaced_eq]
    exact List.forall₂_refl _
  refine (List.forall₂_map_left_iff.1 (List.forall₂_map_right_iff.1 hsame)).imp fun e f hef => ?_
  simpa [Expression.placed, and_assoc] using hef

/-- The second text takes away the placeholder of the escaped parenthesis. -/
theorem findAll_same_escaped :
    let t := "[TEXT(a\\)b) => upper]".toList
    let u := ['\uE001']
    let own := avoiding ',' t
    let other := avoiding ',' (t ++ u)
    isPrivateUse ',' = false ∧ LeavesFree 5 (t ++ u) ∧ own.encode t ≠ other.encode t ∧
    (own.findAll (own.encode t)).length = 1 ∧
    List.Forall₂ (fun e f => e.keyword = f.keyword ∧ e.seed = f.seed ∧
        e.invocations = f.invocations ∧ e.matched = f.matched ∧
        own.spanIn (own.encode t) e = other.spanIn (other.encode t) f)
      (own.findAll (own.encode t)) (other.findAll (other.encode t)) := by
  intro t u own other
  have hall : ['\uE010', '\uE011', '\uE012', '\uE013', '\uE014'].all
      (fun c => isPrivateUse c && !(t ++ u).contains c) = true := by decide +kernel
  have hfree : LeavesFree 5 (t ++ u) := leavesFree_of_all (by decide) hall
  have hone : (own.findAll (own.encode t)).length = 1 := by
    rw [findAll, List.length_mergeSort]
    decide +kernel
  exact ⟨by decide, hfree, by decide +kernel, hone, findAll_same (by decide) hfree⟩

end SeedChain.EscapeCodec
