import ReconcileTrigger.Trigger.Primary
import ReconcileTrigger.Trigger.Secondary

/-!
The gate for watch events: what the triggers of primary and secondary objects share, built once
from the settings.
-/

namespace ReconcileTrigger.Trigger

structure Gate where
  settings : Settings
  catalog : Catalog
  rules : RuleSet
  comparison : Comparison
  deriving DecidableEq

namespace Gate

def ofSettings (s : Settings) : Except Failure Gate := do
  let catalog ← Catalog.ofSettings s
  let rules ← RuleSet.ofSettings s
  return ⟨s, catalog, rules, ⟨s.diff.volatileFields⟩⟩

def withRules (g : Gate) (rules : RuleSet) : Gate :=
  { g with rules }

def withCatalog (g : Gate) (catalog : Catalog) : Gate :=
  { g with catalog }

def primary (g : Gate) : Primary :=
  ⟨g.catalog, g.settings.labels⟩

def secondary (g : Gate) (ownerKind : String) : Logged Secondary :=
  Secondary.ofOwnerKind ownerKind g.catalog g.rules g.comparison

end Gate

end ReconcileTrigger.Trigger
