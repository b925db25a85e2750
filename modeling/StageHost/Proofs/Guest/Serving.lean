import StageHost.Proofs.Guest.Asking
/-
  What a guest is served during a call.
  The values of questions depend on the call in flight and on what is kept of the pod, but neither
  on what was reported nor on what is left in the buffer (`value_of_alike`). An answer only keeps
  what it was (`value_answer`). So no act changes a value (`value_act`), and all questions of one
  call about the same thing are about the same bytes.
-/
namespace StageHost

namespace Host

/-! ## Values -/

theorem call_clearScratch (h : Host) : h.clearScratch.call = h.call := rfl

/-- The JSON of the node is all that the buffer holds after it was asked for. -/
theorem value_node (h : Host) : h.value .node =
    match h.call.bind (·.node) with
    | some info => Json.write info.node.toJson
    | none => [] := by
  unfold value answer nodeBytes
  dsimp only
  rw [call_clearScratch]
  cases h.call.bind (·.node) <;> rfl

theorem value_nodeScores (h : Host) : h.value .nodeScores =
    match h.call.bind (·.nodeScores) with
    | some scores => Json.write (NodeScore.listToJson scores)
    | none => [] := by
  unfold value answer nodeScoresBytes
  dsimp only
  rw [call_clearScratch]
  cases h.call.bind (·.nodeScores) <;> rfl

/-- Whether the key of the call in flight is the one that something may be kept for. -/
def keepsKey (h : Host) : Bool :=
  (h.call.bind (·.key)).isSome && h.cache.key == h.call.bind (·.key)

/-- The JSON of the pod is what is kept for the call's key, if anything is. -/
theorem value_pod (h : Host) : h.value .pod =
    match h.call.bind (·.pod) with
    | some pod =>
      if h.keepsKey then h.cache.pod.getD (Json.write pod.toJson) else Json.write pod.toJson
    | none => [] := by
  unfold value answer podBytes keepsKey
  cases h.call with
  | none => rfl
  | some c =>
    dsimp only [Option.bind_some]
    cases c.pod with
    | none => rfl
    | some pod =>
      dsimp only
      split
      · cases h.cache.pod <;> rfl
      · rfl

/-- Asked for the pod, a host keeps what it serves, or nothing new. -/
theorem cache_answer_pod (h : Host) : (h.answer .pod).2.cache = h.cache ∨
    (h.answer .pod).2.cache = { h.cache with pod := some (h.value .pod) } := by
  unfold value answer podBytes
  dsimp only
  split
  · exact .inl rfl
  · split
    · exact .inl rfl
    · split
      · split
        · exact .inl rfl
        · exact .inr rfl
      · exact .inl rfl

/-- Whether a cache is that of a host, with what the host serves as the pod or without it. -/
def Keeps (h : Host) (cache : CycleCache) : Prop :=
  cache = h.cache ∨ cache = { h.cache with pod := some (h.value .pod) }

/-- Of what a question changes, nothing but the pod's JSON outlasts the next question. -/
theorem answer_keeps (h : Host) (q : Question) :
    ∃ cache scratch, h.Keeps cache ∧ (h.answer q).2 = { h with cache, scratch } := by
  by_cases hq : q = .pod
  · subst hq
    obtain ⟨cache, scratch, hanswer⟩ := h.answer_snd .pod
    have hkeeps := h.cache_answer_pod
    rw [hanswer] at hkeeps
    exact ⟨cache, scratch, hkeeps, hanswer⟩
  · obtain ⟨scratch, hanswer⟩ := h.answer_snd_of_ne hq
    exact ⟨h.cache, scratch, .inl rfl, hanswer⟩

/-- Two hosts with the same settings and the same call in flight, but for its results. -/
structure Alike (h h' : Host) : Prop where
  settings : h'.settings = h.settings
  call : ∃ results : CallContext → Reported,
    h'.call = h.call.map fun c => { c with reported := results c }

variable {h h' : Host}

theorem Alike.refl (h : Host) : h.Alike h := ⟨rfl, CallContext.reported, Option.map_id'.symm⟩

/-- Whatever does not depend on the results is the same. -/
theorem Alike.bind (ha : h.Alike h') {α : Type} {f : CallContext → Option α}
    (hf : ∀ c reported, f { c with reported } = f c) : h'.call.bind f = h.call.bind f := by
  obtain ⟨results, hcall⟩ := ha.call
  rw [hcall]
  cases h.call with
  | none => rfl
  | some c => exact hf c _

/-- Apart from the pod, questions about alike hosts have the same values. -/
theorem value_of_ne (ha : h.Alike h') {q : Question} (hq : q ≠ .pod) :
    h'.value q = h.value q := by
  cases q with
  | pod => exact absurd rfl hq
  | node => rw [value_node, value_node, ha.bind fun _ _ => rfl]
  | nodeScores => rw [value_nodeScores, value_nodeScores, ha.bind fun _ _ => rfl]
  | nodeName =>
    show h'.nodeNameBytes = h.nodeNameBytes
    rw [nodeNameBytes, nodeNameBytes, ha.bind fun _ _ => rfl]
  | config =>
    show h'.configBytes = h.configBytes
    rw [configBytes, configBytes, ha.settings]

theorem value_of_alike (ha : h.Alike h') (hcache : h'.cache = h.cache) (q : Question) :
    h'.value q = h.value q := by
  by_cases hq : q = .pod
  · subst hq
    have hpod := ha.bind (f := (·.pod)) fun _ _ => rfl
    have hkey := ha.bind (f := (·.key)) fun _ _ => rfl
    rw [value_pod, value_pod, keepsKey, keepsKey, hpod, hkey, hcache]
  · exact value_of_ne ha hq

/-! ## Acts -/

theorem alike_answer (h : Host) (q : Question) : h.Alike (h.answer q).2 := by
  obtain ⟨cache, scratch, hanswer⟩ := h.answer_snd q
  rw [hanswer]
  exact ⟨rfl, (Alike.refl h).call⟩

/-- Asked for the pod again, a host serves the same. -/
theorem value_pod_answer (h : Host) : (h.answer .pod).2.value .pod = h.value .pod := by
  have ha := h.alike_answer .pod
  obtain hcache | hcache := h.cache_answer_pod
  · exact value_of_alike ha hcache .pod
  · have hpod := ha.bind (f := (·.pod)) fun _ _ => rfl
    have hkey := ha.bind (f := (·.key)) fun _ _ => rfl
    have hkeeps : (h.answer .pod).2.keepsKey = h.keepsKey := by
      rw [keepsKey, keepsKey, hkey, hcache]
    have hvalue := h.value_pod
    rw [value_pod, hpod, hkeeps, hcache]
    cases hp : h.call.bind (·.pod) with
    | none => rw [hvalue, hp]
    | some pod =>
      dsimp only [Option.getD_some]
      split
      · rfl
      · rename_i hnot
        rw [hvalue, hp]
        exact (if_neg hnot).symm

/-- No answer changes the value of a question. -/
theorem value_answer (h : Host) (p q : Question) : (h.answer p).2.value q = h.value q := by
  by_cases hp : p = .pod
  · subst hp
    by_cases hq : q = .pod
    · subst hq
      exact h.value_pod_answer
    · exact value_of_ne (h.alike_answer _) hq
  · obtain ⟨scratch, hanswer⟩ := h.answer_snd_of_ne hp
    refine value_of_alike (h.alike_answer p) ?_ q
    rw [hanswer]

/-- Nothing that is said changes the value of a question. -/
theorem value_hear (h : Host) (e : Exchange) (q : Question) : (h.hear e).value q = h.value q := by
  have hsame := (Alike.refl h).call
  have ha : h.Alike (h.hear e) ∧ (h.hear e).cache = h.cache := by
    cases e with
    | logged r => exact ⟨⟨rfl, hsame⟩, rfl⟩
    | reported r bytes => exact ⟨⟨rfl, fun c => c.reported.add r bytes, rfl⟩, rfl⟩
    | printed s bytes => cases s <;> exact ⟨⟨rfl, hsame⟩, rfl⟩
  exact value_of_alike ha.1 ha.2 q

theorem value_act (h : Host) (a : Act) (q : Question) : (h.act a).value q = h.value q := by
  cases a with
  | asks p => exact h.value_answer p q
  | wantsMemory bytes =>
    have ha : h.Alike (h.act (.wantsMemory bytes)) := ⟨rfl, (Alike.refl h).call⟩
    exact value_of_alike ha rfl q
  | wantsTable elements =>
    have ha : h.Alike (h.act (.wantsTable elements)) := ⟨rfl, (Alike.refl h).call⟩
    exact value_of_alike ha rfl q
  | tells e => exact h.value_hear e q

theorem value_acts (h : Host) (acts : List Act) (q : Question) :
    (acts.foldl act h).value q = h.value q := by
  induction acts generalizing h with
  | nil => rfl
  | cons a acts ih => rw [List.foldl_cons, ih, value_act]

end Host

end StageHost
