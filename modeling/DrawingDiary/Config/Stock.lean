import DrawingDiary.Text.Lines

/-!
# The stock settings file

A settings file with all settings at their stock values, each with a comment
that says what it is for.
-/

namespace DrawingDiary.Config

def stockLines : List String := [
  "# Rabbit Diary Configuration",
  "# ==========================",
  "# All settings are optional. Remove or comment out any you don't need.",
  "# Values shown below are the defaults.",
  "# Unknown keys will cause an error.",
  "",
  "# ---------------------------------------------------------------------------",
  "# Diary location",
  "# ---------------------------------------------------------------------------",
  "[diary]",
  "# Directories holding one YYYY-MM-DD directory per day, searched in order.",
  "# When the same day exists in two roots, the first one wins.",
  "roots = [\"rabbits\"]",
  "",
  "# Archive directory inside each root, scanned after it. \"\" disables archives.",
  "archive_subdir = \"old\"",
  "",
  "# ---------------------------------------------------------------------------",
  "# Rescan cooldowns",
  "# ---------------------------------------------------------------------------",
  "[cache]",
  "# Minimum seconds between two rescans of a day's drawings.",
  "image_cooldown_secs = 60",
  "",
  "# Minimum seconds between two rescans of a day's notes.",
  "event_cooldown_secs = 60",
  "",
  "# Minimum seconds between two rescans of the diary roots.",
  "diary_cooldown_secs = 5",
  "",
  "# ---------------------------------------------------------------------------",
  "# Strip thumbnail",
  "# ---------------------------------------------------------------------------",
  "[thumbnail]",
  "# Size of one hour's tile, 1 to 4096 pixels per side. The strip is 24 tiles wide.",
  "tile_width = 96",
  "tile_height = 128",
  "",
  "# ---------------------------------------------------------------------------",
  "# Page rendering",
  "# ---------------------------------------------------------------------------",
  "[page]",
  "# Directories searched, in order, for the template file.",
  "template_dirs = [\".\"]",
  "template_file = \"index.html\"",
  "",
  "# Link prefix for drawings and thumbnails on the live page.",
  "api_endpoint = \"/api/rabbits\"",
  "",
  "# ---------------------------------------------------------------------------",
  "# Processing",
  "# ---------------------------------------------------------------------------",
  "[processing]",
  "# Maximum parallel workers (decoding, counting, page rendering).",
  "# Omit or comment out to auto-detect (= number of CPU cores).",
  "# max_processes = 4"]

def stockText : String := Text.unlines stockLines

end DrawingDiary.Config
