import BlogSite.CommandLine

/-!
The words that start a new project: an option that takes one of a few values from the word after it.
-/

namespace BlogSite

namespace CommandLine

/-- A plain word stands for itself. -/
theorem eq_of_classify_plain {word s : String} (h : classify word = .ok (.plain s)) : s = word := by
  have hcandidates : ∀ x ∈ candidates word, x.2 ≠ .plain s := by
    unfold candidates
    split
    · intro x hx
      obtain ⟨_,-,rfl⟩ := List.mem_map.mp hx
      exact fun hplain => by simp at hplain
    · simp
    · simp
  unfold classify at h
  split at h
  · simpa using h.symm
  split at h
  · exact absurd h (by simp)
  split at h
  · simpa using h.symm
  split at h
  · exact absurd h (by simp)
  split at h
  · rename_i name w hcands
    exact absurd (Except.ok.inj h) (hcandidates (name,w) (by simp [hcands]))
  · split at h
    · simpa using h.symm
    · exact absurd h (by simp)
  · exact absurd h (by simp)

theorem classify_of_plain_start {word : String} (h : word.toList.head? ≠ some '-') :
    classify word = .ok (.plain word) := by
  unfold classify
  rw [if_pos h]

/-- An option with a choice of values takes the next word as one, if that is plain. -/
theorem interpretFrom_choice {o : Opt} {key : String} {choices : List String}
    (ho : o.action = .store key choices) (w : Word) :
    interpretFrom [] [] [.option o none,w] = match w with
      | .plain value =>
        if isAllowed choices value then .proceed [(.str key,.str value)]
        else about o (notAmong value choices)
      | _ => about o "expected one argument" := by
  cases w with
  | plain value =>
    simp only [interpretFrom,ho]
    split <;> rfl
  | _ => simp only [interpretFrom,ho]

theorem classifyAll_pair {first second : String} (hfirst : first ≠ "--") {w : Word}
    (hw : classify first = .ok w) : classifyAll [first,second] =
      if second = "--" then .ok [w,.dashes] else (classify second).map fun v => [w,v] := by
  simp only [classifyAll,hfirst,if_false,hw]
  split
  · rfl
  · cases classify second <;> rfl

/-- A new project is started in one of the formats there are, or not at all. -/
theorem interpret_init (format : String) :
    (format ∈ ["yml","yaml","json"] ∧
      interpret ["--init",format] = .proceed [(.str "init",.str format)]) ∨
    (format ∉ ["yml","yaml","json"] ∧ ∃ message, interpret ["--init",format] = .refused message) := by
  obtain ⟨o,hoption,ho⟩ : ∃ o, classify "--init" = .ok (.option o none) ∧
      o.action = .store "init" ["yml","yaml","json"] := ⟨_,rfl,rfl⟩
  have hall : classifyAll ["--init",format] = _ := classifyAll_pair (by decide) hoption
  unfold interpret
  rw [hall]
  by_cases hformat : format ∈ ["yml","yaml","json"]
  · have hplain : format ≠ "--" ∧ format.toList.head? ≠ some '-' := by
      have hall : ∀ f ∈ ["yml","yaml","json"], f ≠ "--" ∧ f.toList.head? ≠ some '-' := by decide
      exact hall format hformat
    refine Or.inl ⟨hformat,?_⟩
    rw [if_neg hplain.1,classify_of_plain_start hplain.2]
    simp only [Except.map,interpretFrom_choice ho]
    rw [if_pos (by simpa [isAllowed] using hformat)]
  · refine Or.inr ⟨hformat,?_⟩
    split
    · exact ⟨_,rfl⟩
    · rename_i ws hws
      split at hws
      · obtain rfl := Except.ok.inj hws
        exact ⟨_,by rw [interpretFrom_choice ho]; rfl⟩
      · cases hw : classify format with
        | error message => simp [hw,Except.map] at hws
        | ok w =>
          obtain rfl : [.option o none,w] = ws := by simpa [hw,Except.map] using hws
          rw [interpretFrom_choice ho]
          cases w with
          | plain value =>
            obtain rfl := eq_of_classify_plain hw
            simp only
            rw [if_neg (by simpa [isAllowed] using hformat)]
            exact ⟨_,rfl⟩
          | _ => exact ⟨_,rfl⟩

end CommandLine

end BlogSite
