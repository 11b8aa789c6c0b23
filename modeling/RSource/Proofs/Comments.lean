/-
**Comments are taken out of the text, and the search among them finds the one over an offset.**

Before a session reads anything it takes the comments out of its tokens, in the order in which the
lexer found them. The search halves its way to the number of comments that begin at or before an
offset; only the last of those can lie over the offset, because no comment reaches into the next
one (`Document.commentAt_eq_some_iff`, for any document with comments in order). Main statement:
`Reading.comments_found`.
-/

import RSource.Proofs.LineBreaks
import RSource.Proofs.Text.Lines

namespace RSource

namespace Document

variable {document : Document} {offset : Nat}

/-! ### The search -/

/-- The search splits the comments where their starts pass the offset, and looks at the last one
in front of that place. -/
theorem exists_narrows_commentAt (ordered : document.comments.Pairwise (·.start < ·.start))
    (offset : Nat) :
    ∃ count, Narrows (document.comments.toArray.map (·.start)) offset count count
      ∧ document.commentAt offset = if count = 0 then none
        else (document.comments[count - 1]?).filter (·.span.contains offset) := by
  have starts : (document.comments.toArray.map (·.start)).toList.Pairwise (· < ·) := by
    rw [List.map_toArray, List.pairwise_map]
    exact ordered
  have known := Narrows.start (document.comments.toArray.map (·.start)) offset
  rw [Array.size_map] at known
  refine ⟨_, narrows_commentsUpTo (document.comments.toArray.size + 1) starts known (by omega), ?_⟩
  simp only [commentAt, List.getElem?_toArray]

/-- A comment over an offset is the last one that begins at or before it. -/
theorem succ_eq_of_narrows (apart : document.comments.Pairwise (·.stop ≤ ·.start))
    {count place : Nat} {comment : Token}
    (split : Narrows (document.comments.toArray.map (·.start)) offset count count)
    (found : document.comments[place]? = some comment)
    (covers : comment.span.contains offset = true) : place + 1 = count := by
  obtain ⟨early, late⟩ := Span.contains_iff.mp covers
  have startAt {other : Nat} {token : Token} (there : document.comments[other]? = some token) :
      (document.comments.toArray.map (·.start))[other]? = some token.start := by
    rw [Array.getElem?_map, List.getElem?_toArray, there, Option.map_some]
  -- from `count` on the comments begin behind the offset
  have before : place < count := by
    refine Nat.not_le.mp fun beyond => ?_
    exact absurd early (Nat.not_le.mpr (split.behind place beyond _ (startAt found)))
  -- a further comment in front of `count` would begin inside this one
  refine Nat.le_antisymm before (Nat.not_lt.mp fun further => ?_)
  obtain ⟨start, small, next⟩ := split.front (place + 1) further
  rw [Array.getElem?_map, List.getElem?_toArray, Option.map_eq_some_iff] at next
  obtain ⟨other, there, rfl⟩ := next
  obtain ⟨inside, rfl⟩ := List.getElem?_eq_some_iff.mp found
  obtain ⟨beyond, rfl⟩ := List.getElem?_eq_some_iff.mp there
  have disjoint := List.pairwise_iff_getElem.mp apart _ _ inside beyond (Nat.lt_succ_self place)
  exact absurd small (Nat.not_le.mpr (Nat.lt_of_lt_of_le late disjoint))

/-- **The search finds the comment over an offset and no other.** -/
theorem commentAt_eq_some_iff (ordered : document.comments.Pairwise (·.start < ·.start))
    (apart : document.comments.Pairwise (·.stop ≤ ·.start)) (comment : Token) :
    document.commentAt offset = some comment
      ↔ comment ∈ document.comments ∧ comment.start ≤ offset ∧ offset < comment.stop := by
  obtain ⟨count, split, result⟩ := exists_narrows_commentAt ordered offset
  have contains : comment.span.contains offset = true
      ↔ comment.start ≤ offset ∧ offset < comment.stop := Span.contains_iff
  rw [result, ← contains]
  constructor
  · intro found
    split at found
    · cases found
    · obtain ⟨there, covers⟩ := Option.filter_eq_some_iff.mp found
      exact ⟨List.mem_of_getElem? there, covers⟩
  · rintro ⟨member, covers⟩
    obtain ⟨place, found⟩ := List.getElem?_of_mem member
    obtain rfl := succ_eq_of_narrows apart split found covers
    rw [if_neg (Nat.succ_ne_zero place), Nat.add_sub_cancel, found, Option.filter_eq_some_iff]
    exact ⟨rfl, covers⟩

end Document

/-! ### The comments of a text -/

namespace Reading

variable (text : Text)

/-- The comments of a text begin one behind the other. -/
theorem comments_in_order : (read text).document.comments.Pairwise (·.start < ·.start) :=
  List.pairwise_map.mpr ((lexemes_ordered text).sublist List.filter_sublist)

/-- No comment of a text reaches into the next one. -/
theorem comments_disjoint : (read text).document.comments.Pairwise (·.stop ≤ ·.start) :=
  List.pairwise_map.mpr ((lexemes_apart text).sublist List.filter_sublist)

/-- The comments are those of the tokens that are comments, in their order. -/
theorem comments_eq_filter : (read text).document.comments
    = ((lexemes text).map (·.token)).filter (·.kind == .comment) := by
  rw [List.filter_map]
  rfl

/-- **The comments of a text are its comment tokens in order, handed over by the session that
reads the text, and the search finds the one over an offset or none if there is none.** -/
theorem comments_found :
    (Session.start text (lexemes text)).readAll.document = (read text).document
      ∧ (read text).document.comments
        = ((lexemes text).map (·.token)).filter (·.kind == .comment)
      ∧ ∀ offset,
        (∀ comment, (read text).document.commentAt offset = some comment
          ↔ comment ∈ (lexemes text).map (·.token) ∧ comment.kind = .comment
            ∧ comment.start ≤ offset ∧ offset < comment.stop)
        ∧ ((read text).document.commentAt offset = none
          ↔ ¬∃ token ∈ (lexemes text).map (·.token), token.kind = .comment
            ∧ token.start ≤ offset ∧ offset < token.stop) := by
  have found (offset : Nat) (comment : Token) :
      (read text).document.commentAt offset = some comment
        ↔ comment ∈ (lexemes text).map (·.token) ∧ comment.kind = .comment
          ∧ comment.start ≤ offset ∧ offset < comment.stop := by
    rw [Document.commentAt_eq_some_iff (comments_in_order text) (comments_disjoint text),
      comments_eq_filter, List.mem_filter, beq_iff_eq, and_assoc]
  refine ⟨(Session.readAll_start text (lexemes text)).2, comments_eq_filter text, fun offset =>
    ⟨found offset, ?_⟩⟩
  rw [Option.eq_none_iff_forall_ne_some]
  simp only [ne_eq, found, not_exists]

end Reading

end RSource
