/-!
# Key names

The names under which buttons and small keypads are known, each with the event code that the
kernel reports for it. Names are looked up in ASCII upper case, with or without the prefix
`KEY_`; where two names share a code, the first one in the list is the one shown.
-/

namespace Keyhold.Key

/-- Names and event codes, in the order in which they are searched. -/
def names : List (String × UInt16) :=
  [("ESC", 1), ("1", 2), ("2", 3), ("3", 4), ("4", 5), ("5", 6), ("6", 7), ("7", 8), ("8", 9),
    ("9", 10), ("0", 11), ("BACKSPACE", 14), ("TAB", 15), ("ENTER", 28), ("LEFTCTRL", 29),
    ("A", 30), ("LEFTSHIFT", 42), ("LEFTALT", 56), ("SPACE", 57), ("F1", 59), ("F2", 60),
    ("F3", 61), ("F4", 62), ("F5", 63), ("F6", 64), ("F7", 65), ("F8", 66), ("F9", 67),
    ("F10", 68), ("F11", 87), ("F12", 88), ("HOME", 102), ("UP", 103), ("LEFT", 105),
    ("RIGHT", 106), ("END", 107), ("DOWN", 108), ("MUTE", 113), ("VOLUMEDOWN", 114),
    ("VOLUMEUP", 115), ("POWER", 116), ("PAUSE", 119), ("STOP", 128), ("AGAIN", 129),
    ("MENU", 139), ("CALC", 140), ("SETUP", 141), ("SLEEP", 142), ("WAKEUP", 143),
    ("PROG1", 148), ("PROG2", 149), ("WWW", 150), ("MAIL", 155), ("BACK", 158),
    ("FORWARD", 159), ("EJECTCD", 161), ("NEXTSONG", 163), ("PLAYPAUSE", 164),
    ("PREVIOUSSONG", 165), ("STOPCD", 166), ("RECORD", 167), ("REWIND", 168), ("PHONE", 169),
    ("CONFIG", 171), ("HOMEPAGE", 172), ("REFRESH", 173), ("EXIT", 174), ("PROG3", 202),
    ("PROG4", 203), ("SUSPEND", 205), ("CLOSE", 206), ("PLAY", 207), ("PRINT", 210),
    ("CAMERA", 212), ("SEARCH", 217), ("BRIGHTNESSDOWN", 224), ("BRIGHTNESSUP", 225),
    ("MEDIA", 226), ("BATTERY", 236), ("BLUETOOTH", 237), ("WLAN", 238), ("UNKNOWN", 240),
    ("RESTART", 408), ("BTN_0", 256), ("BTN_1", 257), ("BTN_2", 258), ("BTN_3", 259),
    ("BTN_LEFT", 272), ("BTN_RIGHT", 273), ("BTN_MIDDLE", 274), ("BTN_SOUTH", 304),
    ("BTN_EAST", 305), ("BTN_NORTH", 307), ("BTN_WEST", 308), ("BTN_SELECT", 314),
    ("BTN_START", 315), ("BTN_MODE", 316)]

/-- The text without one leading `KEY_`. -/
def withoutKeyPrefix : List Char → List Char
  | 'K' :: 'E' :: 'Y' :: '_' :: rest => rest
  | text => text

/-- The spelling under which a trimmed text is searched in the list. -/
def searchName (text : List Char) : List Char := withoutKeyPrefix (text.map Char.toUpper)

/-- The code of the first entry with the given spelling. -/
def codeNamed? (name : List Char) : Option UInt16 :=
  (names.find? fun entry => entry.1.toList == name).map (·.2)

/-- The name shown for a code: that of the first entry with the code. -/
def nameOf? (code : UInt16) : Option String :=
  (names.find? fun entry => entry.2 == code).map (·.1)

end Keyhold.Key
