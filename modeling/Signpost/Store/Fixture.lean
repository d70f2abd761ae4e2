import Signpost.Store.Memory
import Signpost.Toml.Decode

/-!
# Stores from files

The rows of a store in memory as a file lists them: one list for each kind of row.
-/

namespace Signpost.MemoryStore

def read (source : String) : Except Toml.Fault MemoryStore := do
  let ms : Toml.Members ← Toml.read source
  let rows (name : String) : Except Toml.Fault (List Row) :=
    ms.field name (Toml.Value.asList Toml.Value.asNames) []
  return {
    entries := ← rows "entries"
    categories := ← rows "categories"
    members := ← rows "members"
    channels := ← rows "channels" }

end Signpost.MemoryStore
