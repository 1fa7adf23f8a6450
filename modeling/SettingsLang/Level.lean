/-!
Levels: the four kinds of namespace and where each may stand. Domain groups nest at the root and
hold domains; a domain holds configuration groups and configurations, and so do configuration
groups. Nothing may be opened inside a configuration.
-/

namespace SettingsLang

inductive Level where
  | domainGroup
  | domain
  | confGroup
  | conf
  deriving DecidableEq, Repr

namespace Level

def keyword : Level → String
  | .domainGroup => "domainGroup"
  | .domain => "domain"
  | .confGroup => "confGroup"
  | .conf => "conf"

def ofKeyword? (keyword : String) : Option Level :=
  [domainGroup, domain, confGroup, conf].find? (·.keyword == keyword)

/-- The levels whose names make up the domain path; the others make up the configuration path. -/
def isDomainLevel : Level → Bool
  | .domainGroup | .domain => true
  | .confGroup | .conf => false

def allowedIn : Level → Option Level → Bool
  | .domainGroup, parent | .domain, parent => parent == none || parent == some .domainGroup
  | .confGroup, parent | .conf, parent => parent == some .domain || parent == some .confGroup

end Level

end SettingsLang
