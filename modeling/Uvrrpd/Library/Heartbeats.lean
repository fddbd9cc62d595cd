import Mathlib.Data.List.Basic

/-! Heartbeats in a list of events with times. One party beats at least once a period
and a beat is heard within a delay, so whoever waits for longer than both together
has always heard something. -/
namespace Library.Heartbeats
variable {α : Type} {time : α → Int} {beats hears : α → Prop} {start period delay : Int} {l before after : List α}
  {e : α}

def Chronological (time : α → Int) (l : List α) : Prop := l.Pairwise (fun a b => time a ≤ time b)

/-- What happens after the start has a beat at most a period before it. -/
def Regular (time : α → Int) (beats : α → Prop) (start period : Int) (l : List α) : Prop :=
  ∀ before e after, l = before ++ e :: after → start < time e → ∃ b ∈ before, beats b ∧ time e ≤ time b + period

/-- What happens more than a delay after a beat has a hearing before it, since the beat. -/
def Delivered (time : α → Int) (beats hears : α → Prop) (delay : Int) (l : List α) : Prop :=
  ∀ before b between e after, l = before ++ b :: (between ++ e :: after) → beats b → time b + delay < time e →
    ∃ r ∈ between, hears r

/-- Among the beats there is one that is old enough to have been heard, and not older
than that by more than a period. The induction is on what precedes the event; a beat
that is too recent is itself an event with a beat before it. -/
private theorem Regular.exists_old (regular : Regular time beats start period l) (hl : l = before ++ e :: after)
    (now : Int)
    (hnow : now ≤ time e + delay) (hstart : start + delay < now) :
    ∃ early b late, before = early ++ b :: late ∧ beats b ∧ time b + delay < now ∧ now ≤ time b + period + delay := by
  obtain ⟨n, hn⟩ : ∃ n, n = before.length := ⟨_, rfl⟩
  induction n using Nat.strongRecOn generalizing before e after with
  | ind n ih =>
    obtain ⟨b, hb, hbeats, hnear⟩ := regular before e after hl (by omega)
    obtain ⟨early, late, rfl⟩ := List.append_of_mem hb
    by_cases hold : time b + delay < now
    · exact ⟨early, b, late, rfl, hbeats, hold, by omega⟩
    · have hlen : early.length < n := by
        rw [hn, List.length_append, List.length_cons]
        omega
      obtain ⟨early', b', late', rfl, hb', hrest⟩ :=
        ih early.length hlen (hl.trans (List.append_assoc ..)) (by omega) rfl
      exact ⟨early', b', late' ++ b :: late, by simp, hb', hrest⟩

theorem Chronological.between (chron : Chronological time (before ++ e :: after)) {early since : List α} {r : α}
    (hb : before = early ++ r :: since) : ∀ x ∈ since ++ [e], time r ≤ time x ∧ time x ≤ time e := by
  rw [Chronological, hb, List.append_assoc, List.cons_append] at chron
  obtain ⟨hfrom, hsince⟩ := List.pairwise_cons.mp (List.pairwise_append.mp chron).2.1
  intro x hx
  rcases List.mem_append.mp hx with hx | hx
  · exact ⟨hfrom x (by simp [hx]), (List.pairwise_append.mp hsince).2.2 x hx e List.mem_cons_self⟩
  · obtain rfl := List.mem_singleton.mp hx
    exact ⟨hfrom x (by simp), Int.le_refl _⟩

/-- Whatever happens later than a delay after the start has a hearing at most a period
and a delay before it. -/
theorem recently_heard (chron : Chronological time l) (hdelay : 0 ≤ delay)
    (regular : Regular time beats start period l) (delivered : Delivered time beats hears delay l)
    (hl : l = before ++ e :: after) (hstart : start + delay < time e) :
    ∃ early r since, before = early ++ r :: since ∧ hears r ∧ time e ≤ time r + period + delay := by
  obtain ⟨early, b, late, rfl, hbeats, hold, hnear⟩ := regular.exists_old hl (time e) (by omega) hstart
  obtain ⟨r, hr, hhears⟩ := delivered early b late e after (by rw [hl]; simp) hbeats hold
  obtain ⟨between, since, rfl⟩ := List.append_of_mem hr
  subst hl
  have hle : time b ≤ time r :=
    (chron.between (show _ = early ++ b :: (between ++ r :: since) from rfl) r (by simp)).1
  exact ⟨early ++ b :: between, r, since, by simp, hhears, by omega⟩

end Library.Heartbeats
