import Lancaster.Config.Settings
import Lancaster.Rule.Bundled

/-!
The files that come with the stemmer: the default rules and the default settings.
They lie in a data directory beside the program's own site.
-/
namespace Lancaster

def bundledSettingsLines : List String :=
  ["// Stemmer settings (JSON5: comments and trailing commas allowed).",
   "\x7b",
   "  // Rule file relative to this data directory; null selects the bundled ruleset.",
   "  \"rules_file\": null,",
   "  // Longest word handled; longer input is truncated or rejected per \"overflow\".",
   "  \"max_length\": 254,",
   "  \"overflow\": \"truncate\",",
   "  // Per-Stemmer LRU cache of stem results (0 disables caching).",
   "  \"cache_size\": 4096,",
   "  \"workers\": 1,",
   "\x7d"]

def bundledHome : Location := ["usr".toList, "share".toList, "paice-husk".toList]

def bundledDir : Location := bundledHome ++ ["data".toList]

def bundledSite : Location := bundledHome ++ ["program".toList]

def linesContent (lines : List String) : Bytes :=
  lines.flatMap fun l => l.toUTF8.toList ++ [10]

def bundledTree : FileTree :=
  (FileTree.empty.write (bundledDir ++ ["paice_husk_rules.txt".toList])
    (linesContent bundledLines) 0).write
    (bundledDir ++ [configFileName settingsFile]) (linesContent bundledSettingsLines) 0

end Lancaster
