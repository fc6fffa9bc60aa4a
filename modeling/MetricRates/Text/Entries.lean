/-!
# Entries under names

A list of pairs holds values under names, in the order in which the names were
first put in.  The value that was put in under a name is found there.
-/

namespace MetricRates.Text

variable {α : Type}

/-- The entries with a value under a name: in the place of the one that was
there, and at the end otherwise. -/
def putEntry (name : String) (value : α) : List (String × α) → List (String × α)
  | [] => [(name, value)]
  | (first, held) :: rest =>
      if first = name then (name, value) :: rest
      else (first, held) :: putEntry name value rest

/-- The value that was put in is found. -/
@[simp]
theorem lookup_putEntry_self (name : String) (value : α) (entries : List (String × α)) :
    (putEntry name value entries).lookup name = some value := by
  induction entries with
  | nil => simp [putEntry]
  | cons entry rest ih =>
      obtain ⟨first, held⟩ := entry
      by_cases same : first = name
      · simp [putEntry, same]
      · have different : (name == first) = false := by simpa using Ne.symm same
        simp [putEntry, same, List.lookup_cons, different, ih]

end MetricRates.Text
