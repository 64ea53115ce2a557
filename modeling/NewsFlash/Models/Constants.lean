/-!
# The tables of the app

The countries and the result languages that the pickers offer, each with its code. A row of a
picker is an index into both of its tables.
-/

namespace NewsFlash.Models.Constants

namespace Languages

def full : List String :=
  ["Arabic", "Chinese", "Dutch", "English", "French", "German", "Hebrew", "Italian", "Norwegian",
    "Portuguese", "Russian", "Spanish"]

def short : List String :=
  ["ar", "zh", "nl", "en", "fr", "de", "he", "it", "no", "pt", "ru", "es"]

end Languages

namespace Countries

def short : List String :=
  ["ae", "ar", "at", "au", "be", "bg", "br", "ca", "ch", "cn", "co", "cu", "cz", "de", "eg",
    "fr", "gb", "gr", "hk", "hu", "id", "ie", "il", "in", "it", "jp", "kr", "lt", "lv", "ma",
    "mx", "my", "ng", "nl", "no", "nz", "ph", "pl", "pt", "ro", "rs", "ru", "sa", "se", "sg",
    "si", "sk", "th", "tr", "tw", "ua", "us", "ve", "za"]

def full : List String :=
  ["United Arab Emirates", "Armenia", "Austria", "Australia", "Belgium", "Bulgaria", "Brazil",
    "Canada", "Switzerland", "China", "Colombia", "Cuba", "Czech Republic", "Germany", "Egypt",
    "France", "Great Britain", "Greece", "Hong Kong", "Hungary", "Indonesia", "Ireland", "Israel",
    "India", "Italy", "Japan", "South Korea", "Lithuania", "Latvia", "Morocco", "Mexico",
    "Malasia", "Nigeria", "Netherlands", "Norway", "New Zeland", "Philippines", "Poland",
    "Portugal", "Romania", "Serbia", "Russia", "Saudi Arabia", "Sweden", "Singapore", "Slovenia",
    "Slovakia", "Thailand", "Turkey", "Taiwan", "Ukraine", "United States", "Venezuela",
    "South Africa"]

end Countries

end NewsFlash.Models.Constants
