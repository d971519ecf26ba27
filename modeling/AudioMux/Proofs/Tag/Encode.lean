/-
Which tags a table takes. A tag is refused by its encoding alone, and
always as an unsupported request (`exists_reason_of_encode`): it has a
code that cannot stand on its own, or an image of no known format. A tag
that can be encoded is always taken (`add_of_encode`).
-/
import AudioMux.Tag.Table

namespace AudioMux

namespace Tag

theorem exists_reason_of_keyOfCode {code : FourCC} {failure : Failure}
    (h : keyOfCode code = .error failure) :
    ∃ reason, failure = .unsupported reason := by
  unfold keyOfCode at h
  split at h
  · cases h
    exact ⟨_, rfl⟩
  · split at h
    · cases h
      exact ⟨_, rfl⟩
    · cases h

/-- An entry under a code is refused only for its code. -/
theorem exists_reason_of_keyed {code : FourCC} {type : DataType}
    {data : Bytes} {failure : Failure}
    (h : (do pure (entryOf (← keyOfCode code) type data)
      : Except Failure (Option TagEntry)) = .error failure) :
    ∃ reason, failure = .unsupported reason := by
  cases hkey : keyOfCode code with
  | error cause =>
      rw [hkey] at h
      cases h
      exact exists_reason_of_keyOfCode hkey
  | ok key =>
      rw [hkey] at h
      cases h

/-- A tag that is refused is an unsupported request. -/
theorem exists_reason_of_encode {tag : Tag} {failure : Failure}
    (h : tag.encode = .error failure) :
    ∃ reason, failure = .unsupported reason := by
  cases tag with
  | text | int8 | int16 | int32 | int64 | raw =>
      exact exists_reason_of_keyed h
  | track | disc | genre => cases h
  | artwork image =>
      simp only [encode] at h
      split at h
      · cases h
      · split at h
        · cases h
          exact ⟨_, rfl⟩
        · cases h
  | freeForm name value =>
      simp only [encode] at h
      split at h <;> cases h

end Tag

namespace TagTable

/-- A tag that can be encoded is taken. -/
theorem add_of_encode {tag : Tag} {stored? : Option TagEntry}
    (h : tag.encode = .ok stored?) (table : TagTable) :
    table.add tag = .ok (stored?.elim table table.insert) := by
  unfold add
  rw [h]
  cases stored? <;> rfl

/-- A tag that cannot be encoded is refused for that reason. -/
theorem add_of_encode_error {tag : Tag} {failure : Failure}
    (h : tag.encode = .error failure) (table : TagTable) :
    table.add tag = .error failure := by
  unfold add
  rw [h]
  rfl

end TagTable

end AudioMux
